import Scriptlet.Token.Lexer
import Scriptlet.Proofs.Eval.Erase
import Scriptlet.Proofs.Parse.Erase

/-! Layout has no meaning: texts whose tokens differ in nothing but their places are read and run
alike. -/
namespace Scriptlet

variable {ts us : List Token} {p q : Program}

/-- The end of input without a place. -/
def endMark : Token := ⟨.eof, "", none, default, default⟩

private theorem erase_endOfTokens (ts : List Token) : (endOfTokens ts).erase = endMark := by
  unfold endOfTokens
  split <;> rfl

/-- The reply of the reader that `parse` starts. -/
def programReply (ts : List Token) : Reply Program := Parse.program (endOfTokens ts) ts

theorem erase_programReply (ts : List Token) : (programReply ts).erase (List.map Stmt.erase) =
    Parse.program endMark (ts.map Token.erase) := by
  rw [← erase_endOfTokens ts]
  exact (Parse.erases_program _ _).symm

theorem erase_parse (ts : List Token) :
    (parse ts).1.map Stmt.erase =
      ((programReply ts).erase (List.map Stmt.erase)).result.toOption.getD [] ∧
    (parse ts).2.map ParseError.erase =
      ((programReply ts).erase (List.map Stmt.erase)).errors := by
  have hparse : parse ts =
    ((programReply ts).result.toOption.getD [], (programReply ts).errors) := rfl
  rw [hparse]
  rcases programReply ts with ⟨e | p, errors, rest⟩ <;> exact ⟨rfl, rfl⟩

/-- Reading does not look at places, neither in statements nor when it recovers from an error. -/
theorem parse_congr (h : ts.map Token.erase = us.map Token.erase) :
    (parse ts).1.map Stmt.erase = (parse us).1.map Stmt.erase ∧
      (parse ts).2.map ParseError.erase = (parse us).2.map ParseError.erase := by
  have hreply : (programReply ts).erase (List.map Stmt.erase) =
      (programReply us).erase (List.map Stmt.erase) := by
    rw [erase_programReply, erase_programReply, h]
  obtain ⟨hts, hts'⟩ := erase_parse ts
  obtain ⟨hus, hus'⟩ := erase_parse us
  exact ⟨by rw [hts, hus, hreply], by rw [hts', hus', hreply]⟩

namespace Program

/-- What a run comes to: its fault if it fails, wherever that may be, and the machine behind it. -/
def outcome (limit : Nat) (p : Program) (m : Machine) : Option (Option Fault × Machine) :=
  (p.run limit m).map fun
    | (.ok (), m') => (none, m')
    | (.error e, m') => (some e.fault, m')

theorem outcome_erase (limit : Nat) (p : Program) (m : Machine) :
    outcome limit (p.map Stmt.erase) m = outcome limit p m := by
  have hrun : run limit (p.map Stmt.erase) m = Exec.erase (run limit p) m := by
    rw [run, ← Stmt.eraseAll_eq_map, Stmt.execAll_erase]
    rfl
  rw [outcome, hrun, Exec.erase, outcome]
  rcases run limit p m with _ | ⟨e | u, m'⟩ <;> rfl

theorem outcome_congr (h : p.map Stmt.erase = q.map Stmt.erase) (limit : Nat) (m : Machine) :
    outcome limit p m = outcome limit q m := by
  rw [← outcome_erase, h, outcome_erase]

end Program

/-- Two texts with the same kinds, lexemes and literals are read as the same program up to
positions, with the same faults at the same lexemes. On any machine the two programs come to the
same: the same frames, the same console, and success or the same fault. -/
theorem layout_irrelevant (s t : String)
    (h : (tokenize s).1.map Token.erase = (tokenize t).1.map Token.erase) :
    let p := parse (tokenize s).1
    let q := parse (tokenize t).1
    p.1.map Stmt.erase = q.1.map Stmt.erase ∧
      p.2.map ParseError.erase = q.2.map ParseError.erase ∧
      ∀ limit m, p.1.outcome limit m = q.1.outcome limit m := by
  intro p q
  obtain ⟨hprogram, herrors⟩ := parse_congr h
  exact ⟨hprogram, herrors, Program.outcome_congr hprogram⟩

/-- A faulty statement, a call, and a variable that nothing declares. -/
def denseText : String := "let y=;print(1);x;"

/-- The same with blanks and comments. -/
def looseText : String := "let  y = ; /* none */ print( 1 );\t\r x ; // done"

theorem layout_irrelevant_looseText :
    (tokenize denseText).1.map Token.erase = (tokenize looseText).1.map Token.erase ∧
    ((parse (tokenize denseText).1).2.map ParseError.position = [⟨1, 7⟩] ∧
      (parse (tokenize looseText).1).2.map ParseError.position = [⟨1, 10⟩]) ∧
    (parse (tokenize denseText).1).2.map ParseError.erase =
      (parse (tokenize looseText).1).2.map ParseError.erase ∧
    ∃ m, m.console.output = "1\n" ∧
      (parse (tokenize denseText).1).1.outcome 1 (.ofLines []) =
        some (some (.undefinedVariable "x"), m) ∧
      (parse (tokenize looseText).1).1.outcome 1 (.ofLines []) =
        some (some (.undefinedVariable "x"), m) := by
  have htokens :
      (tokenize denseText).1.map Token.erase = (tokenize looseText).1.map Token.erase := by
    decide +kernel
  have hplaces : (parse (tokenize denseText).1).2.map ParseError.position = [⟨1, 7⟩] ∧
      (parse (tokenize looseText).1).2.map ParseError.position = [⟨1, 10⟩] := by
    decide +kernel
  let m : Machine := ⟨.empty, ⟨"1\n", [], 0⟩⟩
  have hdense : (parse (tokenize denseText).1).1.outcome 1 (.ofLines []) =
      some (some (.undefinedVariable "x"), m) := by
    decide +kernel
  obtain ⟨_, herrors, houtcome⟩ := layout_irrelevant denseText looseText htokens
  exact ⟨htokens, hplaces, herrors, m, rfl, hdense, (houtcome 1 _).symm.trans hdense⟩

end Scriptlet
