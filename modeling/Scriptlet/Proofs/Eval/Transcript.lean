import Scriptlet.Proofs.Eval.Effects

/-! What a run does with its console is a transcript: the text that it writes and the number of
lines that it reads. Neither what was written before nor the lines that are not read yet count for
anything, and a line that is missing reads as an empty one. -/
namespace Scriptlet

namespace Console

variable {c c' : Console} {k l : Nat}

/-- The console behind `k` reads and the text `o` written. -/
def past (c : Console) (k : Nat) (o : String) : Console :=
  ⟨c.output ++ o, c.input.drop k, c.reads + k⟩

/-- The next `k` reads give the same lines. -/
def SameReads (k : Nat) (c c' : Console) : Prop :=
  ∀ i < k, c'.input.getD i "" = c.input.getD i ""

theorem past_zero (c : Console) : c.past 0 "" = c := by
  simp [past]

theorem past_past (c : Console) (k l : Nat) (o u : String) :
    (c.past k o).past l u = c.past (k + l) (o ++ u) := by
  simp [past, String.append_assoc, Nat.add_assoc]

theorem SameReads.left (h : SameReads (k + l) c c') : SameReads k c c' :=
  fun i hi => h i (Nat.lt_add_right l hi)

theorem SameReads.right (h : SameReads (k + l) c c') (o : String) :
    SameReads l (c.past k o) (c'.past k o) := by
  intro i hi
  have hki := h (k + i) (Nat.add_lt_add_left hi k)
  simpa [past, List.getD_eq_getElem?_getD] using hki

end Console

open Console

/-- What a call does to the console: `print` writes, `input` writes and reads, and the other two do
nothing. The result depends on nothing but the line that is read. -/
theorem Builtin.call_past (b : Builtin) (vs : List Value) (c : Console) :
    ∃ k o, (b.call vs c).2 = c.past k o ∧
      ∀ c', SameReads k c c' → b.call vs c' = ((b.call vs c).1, c'.past k o) := by
  cases b with
  | print =>
    refine ⟨0, String.intercalate " " (vs.map Value.text) ++ "\n", ?_, fun c' _ => ?_⟩
    · simp [call, past, writeLine, String.append_assoc]
    · simp [call, past, writeLine, String.append_assoc]
  | input =>
    have hcall (c : Console) : call input vs c =
        (.ok (.string (c.input.getD 0 "")), c.past 1 ((vs.map Value.text).headD "")) := by
      have hline : c.input.head?.getD "" = c.input.getD 0 "" := by
        cases c.input <;> rfl
      cases vs with
      | nil => simp [call, past, readLine, hline]
      | cons v vs => simp [call, past, readLine, write, hline]
    refine ⟨1, (vs.map Value.text).headD "", by rw [hcall], fun c' hsame => ?_⟩
    rw [hcall, hcall, hsame 0 Nat.one_pos]
  | length | substring => exact ⟨0, "", c.past_zero.symm, fun c' _ => by rw [past_zero]; rfl⟩

namespace Exec

variable {α β : Type}

/-- Whenever the computation returns, it has read some lines and written some text. With another
console that has the same lines to read it returns the same and writes the same. -/
def Transcribed (x : Exec α) : Prop :=
  ∀ m r m', x m = some (r, m') → ∃ k o, m'.console = m.console.past k o ∧
    ∀ c', SameReads k m.console c' →
      x { m with console := c' } = some (r, { m' with console := c'.past k o })

/-- A computation with variables alone neither reads nor writes. -/
theorem transcribed_of_scopes {x : Exec α}
    (hx : ∀ s, ∃ r t, ∀ c, x ⟨s, c⟩ = some (r, ⟨t, c⟩)) : Transcribed x := by
  intro m r m' h
  obtain ⟨r', t, ht⟩ := hx m.scopes
  have hm : some (r', (⟨t, m.console⟩ : Machine)) = some (r, m') := (ht m.console).symm.trans h
  cases hm
  refine ⟨0, "", m.console.past_zero.symm, fun c' _ => ?_⟩
  rw [past_zero]
  exact ht c'

theorem transcribed_pure (a : α) : Transcribed (pure a : Exec α) :=
  transcribed_of_scopes fun _ => ⟨_, _, fun _ => rfl⟩

theorem transcribed_throw (e : RuntimeError) : Transcribed (throw e : Exec α) :=
  transcribed_of_scopes fun _ => ⟨_, _, fun _ => rfl⟩

theorem Transcribed.bind {x : Exec α} {f : α → Exec β} (hx : Transcribed x)
    (hf : ∀ a, Transcribed (f a)) : Transcribed (x >>= f) := by
  intro m r m' h
  obtain ⟨e, he, rfl⟩ | ⟨a, m₁, ha, h⟩ := bind_eq_some.1 h
  · obtain ⟨k, o, hm', hagain⟩ := hx m _ m' he
    refine ⟨k, o, hm', fun c' hsame => ?_⟩
    exact bind_eq_some.2 (.inl ⟨e, hagain c' hsame, rfl⟩)
  · obtain ⟨k, o, hm₁, hfirst⟩ := hx m _ m₁ ha
    obtain ⟨l, u, hm', hsecond⟩ := hf a m₁ r m' h
    refine ⟨k + l, o ++ u, ?_, fun c' hsame => ?_⟩
    · rw [hm', hm₁, past_past]
    · have hlater : SameReads l m₁.console (c'.past k o) := by
        rw [hm₁]
        exact hsame.right o
      rw [← past_past]
      exact bind_eq_some.2 (.inr ⟨a, _, hfirst c' hsame.left, hsecond _ hlater⟩)

theorem transcribed_lookup (p : Position) (id : String) :
    Transcribed (ofEval (Eval.lookup p id)) := by
  refine transcribed_of_scopes fun s => ?_
  simp only [ofEval, Eval.lookup_apply]
  cases s.get? id with
  | none => exact ⟨_, _, fun _ => rfl⟩
  | some v => exact ⟨_, _, fun _ => rfl⟩

theorem transcribed_assign (p : Position) (id : String) (v : Value) :
    Transcribed (ofEval (Eval.assign p id v)) := by
  refine transcribed_of_scopes fun s => ?_
  simp only [ofEval, Eval.assign_apply]
  cases s.assign id v with
  | error fault => exact ⟨_, _, fun _ => rfl⟩
  | ok t => exact ⟨_, _, fun _ => rfl⟩

theorem transcribed_builtin (p : Position) (b : Builtin) (vs : List Value) :
    Transcribed (ofEval (Eval.builtin p b vs)) := by
  intro m r m' h
  obtain ⟨k, o, hconsole, hagain⟩ := b.call_past vs m.console
  rw [ofEval, Eval.builtin_apply] at h
  cases h
  refine ⟨k, o, hconsole, fun c' hsame => ?_⟩
  rw [ofEval, Eval.builtin_apply, hagain c' hsame]

theorem transcribed_declare (name : String) (v : Value) :
    Transcribed (modify fun m => { m with scopes := m.scopes.declare name v }) :=
  transcribed_of_scopes fun s => ⟨.ok (), s.declare name v, fun _ => rfl⟩

theorem transcribed_announce (name : String) : Transcribed (modify (·.announce name)) := by
  rintro m _ _ ⟨⟩
  refine ⟨0, "Function '" ++ name ++ "' defined (not yet executable)" ++ "\n", ?_, fun c' _ => ?_⟩
  · simp [Machine.announce, past, writeLine, String.append_assoc]
  · change some (_, Machine.announce { m with console := c' } name) = _
    simp [Machine.announce, past, writeLine, String.append_assoc]

theorem Transcribed.inScope {x : Exec Unit} (hx : Transcribed x) : Transcribed (inScope x) := by
  intro m r m' h
  obtain ⟨m₁, h₁, rfl⟩ := inScope_eq_some.1 h
  obtain ⟨k, o, hm₁, hagain⟩ := hx _ r m₁ h₁
  refine ⟨k, o, hm₁, fun c' hsame => ?_⟩
  exact inScope_eq_some.2 ⟨_, hagain c' hsame, rfl⟩

end Exec

theorem admitsAll_transcribed : Exec.AdmitsAll (fun _ => True) fun _ x => Exec.Transcribed x where
  result := Exec.transcribed_pure
  failure := Exec.transcribed_throw
  seq := Exec.Transcribed.bind
  lookup := Exec.transcribed_lookup
  assign p _ v := Exec.transcribed_assign p _ v
  call p _ vs := Exec.transcribed_builtin p _ vs
  declare _ v := Exec.transcribed_declare _ v
  define _ := Exec.transcribed_announce _
  scope := Exec.Transcribed.inScope
  unfinished := nofun

/-- A run that returns, also by a failure, after `k` reads has added a text to what was written, and
the first `k` lines of the input are gone, all of them if there were fewer. With any other text
before it, and any lines of which the first `k` are the same, where a missing line counts as empty,
the run returns the same with the same variables and adds the same text. -/
theorem Program.run_transcript (p : Program) (limit : Nat) (s : Scopes) (c : Console)
    (r : Except RuntimeError Unit) (m' : Machine) (h : p.run limit ⟨s, c⟩ = some (r, m')) :
    ∃ k o, m'.console = ⟨c.output ++ o, c.input.drop k, c.reads + k⟩ ∧
      ∀ c' : Console, (∀ i < k, c'.input.getD i "" = c.input.getD i "") →
        p.run limit ⟨s, c'⟩ =
          some (r, ⟨m'.scopes, ⟨c'.output ++ o, c'.input.drop k, c'.reads + k⟩⟩) :=
  Stmt.admits_execAll admitsAll_transcribed .word limit p (fun _ _ => trivial) ⟨s, c⟩ r m' h

/-- `let a = input("? ");`, `print(length(a));` and `a / 1;` -/
def promptProgram : Program :=
  [.declare ⟨1, 1⟩
      ⟨"a", none, some (.call ⟨1, 9⟩ (.name ⟨1, 9⟩ "input") [.literal ⟨1, 15⟩ (.string "? ")]),
        false⟩,
    .expr ⟨2, 1⟩ (.call ⟨2, 1⟩ (.name ⟨2, 1⟩ "print")
      [.call ⟨2, 7⟩ (.name ⟨2, 7⟩ "length") [.name ⟨2, 14⟩ "a"]]),
    .expr ⟨3, 1⟩ (.binary ⟨3, 3⟩ .div (.name ⟨3, 1⟩ "a") (.literal ⟨3, 5⟩ (.integer 1)))]

/-- What the program comes to once it has read an empty line. -/
def promptFailure (c : Console) : Except RuntimeError Unit × Machine :=
  (.error ⟨.invalidOperands .division, ⟨3, 3⟩⟩, ⟨⟨[("a", .string "")], []⟩, c⟩)

/-- The end of input and an empty line are the same to it, whatever comes behind that line and
whatever was written before. -/
theorem run_transcript_promptProgram :
    promptProgram.run 1 ⟨.empty, ⟨"> ", [], 0⟩⟩ = some (promptFailure ⟨"> ? 0\n", [], 1⟩) ∧
      promptProgram.run 1 ⟨.empty, ⟨"", ["", "b"], 4⟩⟩ =
        some (promptFailure ⟨"? 0\n", ["b"], 5⟩) := by
  have hrun : promptProgram.run 1 ⟨.empty, ⟨"> ", [], 0⟩⟩ =
      some (promptFailure ⟨"> ? 0\n", [], 1⟩) := rfl
  obtain ⟨k, o, hconsole, hagain⟩ := Program.run_transcript _ _ _ _ _ _ hrun
  obtain ⟨houtput, _, hreads⟩ := Console.mk.inj hconsole
  have hk : 1 = 0 + k := hreads
  obtain rfl : k = 1 := by omega
  obtain rfl : o = "? 0\n" := (String.append_right_inj "> ").1 houtput.symm
  have hsame : ∀ i < 1, ["", "b"].getD i "" = [].getD i "" := by decide
  exact ⟨hrun, hagain ⟨"", ["", "b"], 4⟩ hsame⟩

end Scriptlet
