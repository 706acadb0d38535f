import Scriptlet.Session.Basic
import Scriptlet.Proofs.Eval.Erase
import Scriptlet.Proofs.Parse.Boundary
import Scriptlet.Proofs.Parse.Erase
import Scriptlet.Proofs.Parse.StatementSound
import Scriptlet.Proofs.Token.Join

/-! A session runs its texts as one script that holds them line by line. -/
namespace Scriptlet

open Parse (Reads NotNext)

variable {s t : String} {p q : Program} {limit : Nat} {m m' : Machine}

/-- Some block comment of the text is not closed. -/
def EndsInComment (s : String) : Prop :=
  ∃ t ∈ (Lexer.ofString s).allTokens.1, OpenComment t.lexeme.toList

instance : DecidablePred EndsInComment := fun s =>
  inferInstanceAs (Decidable (∃ t ∈ (Lexer.ofString s).allTokens.1, OpenComment t.lexeme.toList))

/-- The tokens before the end of input, without their places. -/
def contents (s : String) : List Token :=
  (input (tokenize s).1).2.map Token.erase

/-- Nothing is wrong with the text, and it holds the program `p` that has no positions. -/
def ReadsAs (s : String) (p : Program) : Prop :=
  (tokenize s).2 = [] ∧ ∀ stop, Reads Parse.program stop (contents s) p []

/-- A program without faults is read alike whatever stands for the end of input. -/
theorem reads_program_stop {stop : Token} {ts rest : List Token} (hts : ∀ t ∈ ts, t.kind ≠ .eof)
    (h : Reads Parse.program stop ts p rest) (stop' : Token) :
    Reads Parse.program stop' ts p [] := by
  have happ := Parse.program_append hts h Parse.notNext_nil stop'
  have hnil : Parse.program stop' [] = ⟨.ok [], [], []⟩ := Parse.program_of_ends rfl stop'
  rw [List.append_nil, hnil] at happ
  rw [Reads, happ, Parse.prepend, Except.map, List.append_nil]

theorem kind_of_mem_contents {t : Token} (h : t ∈ contents s) : t.kind ≠ .eof := by
  obtain ⟨t, ht, rfl⟩ := List.mem_map.1 h
  exact kind_ne_eof_input _ t ht

theorem ReadsAs.of_isClean (h : (Script.ofString s).isClean) :
    ReadsAs s ((Script.ofString s).program.map Stmt.erase) := by
  rw [Script.isClean, Bool.and_eq_true, List.isEmpty_iff, List.isEmpty_iff] at h
  refine ⟨h.1, fun stop' => ?_⟩
  have hparse : (parse (tokenize s).1).2 = [] := h.2
  obtain ⟨rest, hreads⟩ := reads_of_parse hparse
  have herase := Parse.erases_program (input (tokenize s).1).1 (input (tokenize s).1).2
  rw [hreads] at herase
  exact reads_program_stop (fun _ => kind_of_mem_contents) herase stop'

theorem ReadsAs.script (h : ReadsAs s p) :
    (Script.ofString s).lexErrors = [] ∧ (Script.ofString s).parseErrors = [] ∧
      (Script.ofString s).program.map Stmt.erase = p := by
  obtain ⟨p', hp', hparse⟩ := parse_eq_input (tokenize s).1
  have hr := (Parse.erases_program _ _).symm.trans (h.2 (input (tokenize s).1).1.erase)
  rw [Reply.erase, hp', Reply.mk.injEq] at hr
  have hprogram : (Script.ofString s).program = p' := congrArg Prod.fst hparse
  have herrors : (Script.ofString s).parseErrors = _ := congrArg Prod.snd hparse
  rw [hprogram, herrors]
  exact ⟨h.1, List.map_eq_nil_iff.1 hr.2.1, Except.ok.inj hr.1⟩

theorem readsAs_empty : ReadsAs "" [] := by
  have htokens : (Lexer.ofString "").tokenize = _ := Lexer.tokenize_of_eof rfl
  have hcontents : contents "" = [] := by
    rw [contents, tokenize, htokens]
    rfl
  refine ⟨?_, fun stop => ?_⟩
  · rw [tokenize, htokens]
    rfl
  · rw [hcontents]
    exact Parse.program_of_ends rfl stop

theorem faults_eq_nil_iff (s : String) :
    (tokenize s).2 = [] ↔ (Lexer.ofString s).tokenize.2.faults = [] :=
  List.map_eq_nil_iff.symm

theorem tokenize_line (hs : (tokenize s).2 = []) (hc : ¬ EndsInComment s) (t : String) :
    ((tokenize (s ++ "\n" ++ t)).2 = [] ↔ (tokenize t).2 = []) ∧
      contents (s ++ "\n" ++ t) = contents s ++ Lexer.newlineToken :: contents t := by
  have hrest : (Lexer.ofString (s ++ "\n" ++ t)).rest =
      (Lexer.ofString s).rest ++ '\n' :: (Lexer.ofString t).rest := by
    simp [Lexer.ofString]
  have hclosed : ∀ t ∈ (Lexer.ofString s).allTokens.1, ¬ OpenComment t.lexeme.toList :=
    fun t ht hopen => hc ⟨t, ht, hopen⟩
  obtain ⟨htokens, new, hnew, hnew'⟩ :=
    Lexer.tokenize_newline hrest ((faults_eq_nil_iff s).1 hs) hclosed
  constructor
  · rw [faults_eq_nil_iff, faults_eq_nil_iff, hnew, hnew']
    rfl
  · have hfront : ∀ t ∈ contents s, decide (t.kind ≠ .eof) = true :=
      fun t ht => decide_eq_true (kind_of_mem_contents ht)
    calc contents (s ++ "\n" ++ t)
      _ = (((tokenize (s ++ "\n" ++ t)).1.map Token.erase).takeWhile (·.kind ≠ .eof)) :=
        (takeWhile_erase _).symm
      _ = (contents s ++ Lexer.newlineToken :: (tokenize t).1.map Token.erase).takeWhile
          (·.kind ≠ .eof) := congrArg (List.takeWhile _) htokens
      _ = contents s ++ Lexer.newlineToken :: contents t := by
        rw [List.takeWhile_append_of_pos hfront, List.takeWhile_cons_of_pos rfl, takeWhile_erase]
        rfl

theorem ReadsAs.newline (hs : ReadsAs s p) (hc : ¬ EndsInComment s) (ht : ReadsAs t q) :
    ReadsAs (s ++ "\n" ++ t) (p ++ q) := by
  obtain ⟨hfaults, hcontents⟩ := tokenize_line hs.1 hc t
  refine ⟨hfaults.2 ht.1, fun stop => ?_⟩
  have hnl : NotNext (.keyword .elseKw) (Lexer.newlineToken :: contents t) := by
    rw [Parse.notNext_cons]
    exact nofun
  have hskip : Parse.program stop (Lexer.newlineToken :: contents t) =
      Parse.program stop (contents t) := by
    apply Parse.program_congr
    rfl
  have happend := Parse.program_append (fun _ => kind_of_mem_contents) (hs.2 stop) hnl stop
  rw [Reads, hcontents, happend, hskip, ht.2 stop]
  rfl

/-- Texts without faults and without open comments, one to a line, hold their programs in order. -/
theorem readsAs_intercalate {texts : List String}
    (hclean : ∀ s ∈ texts, (Script.ofString s).isClean) (hclosed : ∀ s ∈ texts, ¬ EndsInComment s) :
    ReadsAs ("\n".intercalate texts)
      ((texts.map fun s => (Script.ofString s).program).flatten.map Stmt.erase) := by
  induction texts with
  | nil => exact readsAs_empty
  | cons s texts ih =>
    rw [List.forall_mem_cons] at hclean hclosed
    have hs := ReadsAs.of_isClean hclean.1
    cases texts with
    | nil =>
      rw [String.intercalate_singleton]
      simpa using hs
    | cons t texts =>
      have hmore := hs.newline hclosed.1 (ih hclean.2 hclosed.2)
      rw [String.intercalate_cons_cons]
      simpa using hmore

namespace Program

/-- The program runs to its end without an error. -/
def Runs (limit : Nat) (p : Program) (m m' : Machine) : Prop := p.run limit m = some (.ok (), m')

/-- Runs programs one after the other. There is no result if one of them fails or reaches the
limit. -/
def runAll (limit : Nat) : List Program → Machine → Option Machine
  | [], m => some m
  | p :: ps, m =>
    match p.run limit m with
    | some (.ok (), m) => runAll limit ps m
    | _ => none

theorem execAll_append (w : Arithmetic) (limit : Nat) (p q : Program) :
    Stmt.execAll w limit (p ++ q) = (do Stmt.execAll w limit p; Stmt.execAll w limit q) := by
  induction p with
  | nil => rfl
  | cons s p ih =>
    rw [List.cons_append, Stmt.execAll, Stmt.execAll, ih, bind_assoc]

theorem runs_append {m'' : Machine} :
    Runs limit (p ++ q) m m'' ↔ ∃ m', Runs limit p m m' ∧ Runs limit q m' m'' := by
  rw [Runs, run, execAll_append, Exec.bind_eq_some]
  constructor
  · rintro (⟨e, _, he⟩ | ⟨_, m', hp, hq⟩)
    · cases he
    · exact ⟨m', hp, hq⟩
  · rintro ⟨m', hp, hq⟩
    exact .inr ⟨(), m', hp, hq⟩

theorem runs_erase : Runs limit (p.map Stmt.erase) m m' ↔ Runs limit p m m' := by
  rw [Runs, Runs, run, run, ← Stmt.eraseAll_eq_map, Stmt.execAll_erase, Exec.erase]
  rcases Stmt.execAll .word limit p m with _ | ⟨e | _, m₁⟩
  · rfl
  · constructor <;> intro h <;> cases h
  · rfl

theorem runAll_cons {ps : List Program} {m'' : Machine} :
    runAll limit (p :: ps) m = some m'' ↔
      ∃ m', Runs limit p m m' ∧ runAll limit ps m' = some m'' := by
  rw [runAll]
  unfold Runs
  rcases p.run limit m with _ | ⟨e | _, m'⟩ <;> simp

/-- Programs run one after the other as one program does. -/
theorem runAll_eq_some {ps : List Program} :
    runAll limit ps m = some m' ↔ Runs limit ps.flatten m m' := by
  induction ps generalizing m with
  | nil =>
    have hnil : Program.run limit [] m = some (.ok (), m) := rfl
    simp [runAll, Runs, hnil]
  | cons p ps ih => simp only [runAll_cons, List.flatten_cons, runs_append, ih]

end Program

namespace Machine

/-- Evaluates lines one after the other. -/
def evaluateLines (limit : Nat) (m : Machine) (texts : List String) : Option Machine :=
  texts.foldlM (fun m text => (m.evaluateLine limit text).map Prod.snd) m

theorem evaluateLine_of_runs (hclean : (Script.ofString s).isClean)
    (h : (Script.ofString s).program.Runs limit m m') : m.evaluateLine limit s = some ("", m') := by
  rw [evaluateLine, if_pos hclean, h]
  rfl

theorem evaluateLine_of_not_isClean (h : ¬ (Script.ofString s).isClean) :
    m.evaluateLine limit s = some (unlines (Script.ofString s).diagnostics, m) := by
  rw [evaluateLine, if_neg h]

end Machine

/-- The texts that nothing is wrong with. -/
def cleanTexts (texts : List String) : List String :=
  texts.filter fun s => (Script.ofString s).isClean

/-- The programs of texts. -/
def programs (texts : List String) : List Program := texts.map fun s => (Script.ofString s).program

/-- A session whose clean texts all succeed ends where their programs end. -/
theorem evaluateLines_of_runAll {texts : List String}
    (h : Program.runAll limit (programs (cleanTexts texts)) m = some m') :
    m.evaluateLines limit texts = some m' := by
  induction texts generalizing m with
  | nil => exact h
  | cons s texts ih =>
    rw [Machine.evaluateLines, List.foldlM_cons]
    rw [cleanTexts, List.filter_cons] at h
    by_cases hclean : (Script.ofString s).isClean
    · rw [if_pos hclean, programs, List.map_cons] at h
      obtain ⟨m₁, hs, hrest⟩ := Program.runAll_cons.1 h
      rw [Machine.evaluateLine_of_runs hclean hs]
      exact ih hrest
    · rw [if_neg hclean] at h
      rw [Machine.evaluateLine_of_not_isClean hclean]
      exact ih h

/-- A session equals a script. Its clean texts, one to a line, are a text without faults that holds
their programs in order; it succeeds exactly if they all do, and then the session ends with the same
machine. -/
theorem session_eq_script (texts : List String)
    (hclosed : ∀ s ∈ cleanTexts texts, ¬ EndsInComment s) :
    let script := Script.ofString ("\n".intercalate (cleanTexts texts))
    let ps := programs (cleanTexts texts)
    script.lexErrors = [] ∧ script.parseErrors = [] ∧
      script.program.map Stmt.erase = ps.flatten.map Stmt.erase ∧
      ∀ limit m m', (Program.runAll limit ps m = some m' ↔
          script.program.run limit m = some (.ok (), m')) ∧
        (Program.runAll limit ps m = some m' → m.evaluateLines limit texts = some m') := by
  intro script ps
  have hclean : ∀ s ∈ cleanTexts texts, (Script.ofString s).isClean :=
    fun s hs => (List.mem_filter.1 hs).2
  obtain ⟨hlex, hparse, hprogram⟩ := (readsAs_intercalate hclean hclosed).script
  refine ⟨hlex, hparse, hprogram, fun limit m m' => ⟨?_, evaluateLines_of_runAll⟩⟩
  calc Program.runAll limit ps m = some m'
    _ ↔ Program.Runs limit ps.flatten m m' := Program.runAll_eq_some
    _ ↔ Program.Runs limit (ps.flatten.map Stmt.erase) m m' := Program.runs_erase.symm
    _ ↔ Program.Runs limit (script.program.map Stmt.erase) m m' := by rw [hprogram]; rfl
    _ ↔ Program.Runs limit script.program m m' := Program.runs_erase

/-- Two texts that run, and between them one that is not a program. -/
def noteTexts : List String := ["let x = 2; /* two */", "let y = ;", "print(x + x); // four"]

theorem session_eq_script_noteTexts :
    cleanTexts noteTexts = ["let x = 2; /* two */", "print(x + x); // four"] ∧
      ∃ m, m.console.output = "4\n" ∧ (Machine.ofLines []).evaluateLines 1 noteTexts = some m ∧
        (Script.ofString "let x = 2; /* two */\nprint(x + x); // four").program.run 1
          (.ofLines []) = some (.ok (), m) := by
  have hkept : cleanTexts noteTexts = ["let x = 2; /* two */", "print(x + x); // four"] := by
    decide +kernel
  have hclosed : ∀ s ∈ cleanTexts noteTexts, ¬ EndsInComment s := by
    rw [hkept]
    decide +kernel
  have hout : (Program.runAll 1 (programs (cleanTexts noteTexts)) (.ofLines [])).map
      (·.console.output) = some "4\n" := by
    rw [hkept]
    decide +kernel
  obtain ⟨m, hm, hout⟩ := Option.map_eq_some_iff.1 hout
  have hruns := (session_eq_script noteTexts hclosed).2.2.2 1 (.ofLines []) m
  have hjoined := hruns.1.1 hm
  rw [hkept] at hjoined
  exact ⟨hkept, m, hout, hruns.2 hm, hjoined⟩

end Scriptlet
