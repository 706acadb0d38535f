import Scriptlet.Proofs.Parse.Origin

/-! Errors are recorded where the reader stands, so their places go forward as it does. Only a wrong
assignment target is reported late, at a sign that is already passed. -/
namespace Scriptlet

namespace Parse

variable {stop t : Token} {ts us mid rest : List Token} {es : List ParseError}

/-- A program is read on a course through all its errors. -/
theorem course_program (stop : Token) (ts : List Token) :
    Course stop ts (program stop ts).errors (program stop ts).rest := by
  have hc := composed_statements (fun _ => false) (composed_within (ts.length + 1)).2
    (ts.length + 1)
  obtain ⟨⟨p, hp⟩, _⟩ := program_total stop ts
  have hcourse : Course stop ts (program stop ts).allErrors (program stop ts).rest :=
    (hc.onCourse stop ts).course
  rwa [Reply.allErrors, hp] at hcourse

/-- An error with the index of a token. -/
abbrev Placed := ParseError × Nat

namespace Placed

/-- Of two errors, the first stands no later than the second, unless the second is a wrong
assignment target; if only the first is one, it stands before the second. -/
def Leads (a b : Placed) : Prop :=
  b.1.fault ≠ .invalidAssignmentTarget →
    a.2 ≤ b.2 ∧ (a.1.fault = .invalidAssignmentTarget → a.2 < b.2)

/-- The error stands at the token with its index, and can be found there. -/
def StandsIn (tokens : List Token) (l : Placed) : Prop :=
  ∃ t, tokens[l.2]? = some t ∧ l.1.IsAt t ∧ l.1.fault.Fits t.kind

/-- Errors between the indices `i` and `j`, each at its token and in the right order. -/
structure Ordered (tokens : List Token) (i j : Nat) (ls : List Placed) : Prop where
  standsIn : ∀ l ∈ ls, l.StandsIn tokens
  ge : ∀ l ∈ ls, i ≤ l.2
  le : ∀ l ∈ ls, l.2 ≤ j
  lt : ∀ l ∈ ls, l.1.fault = .invalidAssignmentTarget → l.2 < j
  leads : ls.Pairwise Leads

variable {tokens : List Token} {i j k : Nat} {ls ls' : List Placed}

private theorem ordered_nil : Ordered tokens i j [] := ⟨nofun, nofun, nofun, nofun, .nil⟩

private theorem ordered_singleton {l : Placed} (h : l.StandsIn tokens)
    (hne : l.1.fault ≠ .invalidAssignmentTarget) : Ordered tokens l.2 l.2 [l] where
  standsIn := List.forall_mem_singleton.2 h
  ge := List.forall_mem_singleton.2 (Nat.le_refl _)
  le := List.forall_mem_singleton.2 (Nat.le_refl _)
  lt := List.forall_mem_singleton.2 fun heq => absurd heq hne
  leads := List.pairwise_singleton _ _

theorem Ordered.append (h : Ordered tokens i j ls) (h' : Ordered tokens j k ls') (hij : i ≤ j)
    (hjk : j ≤ k) : Ordered tokens i k (ls ++ ls') where
  standsIn := List.forall_mem_append.2 ⟨h.standsIn, h'.standsIn⟩
  ge := List.forall_mem_append.2 ⟨h.ge, fun l hl => Nat.le_trans hij (h'.ge l hl)⟩
  le := List.forall_mem_append.2 ⟨fun l hl => Nat.le_trans (h.le l hl) hjk, h'.le⟩
  lt := List.forall_mem_append.2
    ⟨fun l hl htarget => Nat.lt_of_lt_of_le (h.lt l hl htarget) hjk, h'.lt⟩
  leads := List.pairwise_append.2 ⟨h.leads, h'.leads, fun a ha b hb _ =>
    ⟨Nat.le_trans (h.le a ha) (h'.ge b hb),
      fun htarget => Nat.lt_of_lt_of_le (h.lt a ha htarget) (h'.ge b hb)⟩⟩

/-- A wrong target may come last, though it stands before all others. -/
theorem Ordered.target (h : Ordered tokens (i + 1) j ls) (hij : i + 1 ≤ j) {l : Placed}
    (hl : l.StandsIn tokens) (htarget : l.1.fault = .invalidAssignmentTarget) (hi : l.2 = i) :
    Ordered tokens i j (ls ++ [l]) where
  standsIn := List.forall_mem_append.2 ⟨h.standsIn, List.forall_mem_singleton.2 hl⟩
  ge := List.forall_mem_append.2 ⟨fun a ha => Nat.le_of_succ_le (h.ge a ha),
    List.forall_mem_singleton.2 (Nat.le_of_eq hi.symm)⟩
  le := List.forall_mem_append.2 ⟨h.le, List.forall_mem_singleton.2 (hi ▸ Nat.le_of_succ_le hij)⟩
  lt := List.forall_mem_append.2 ⟨h.lt, List.forall_mem_singleton.2 fun _ => hi ▸ hij⟩
  leads := List.pairwise_append.2 ⟨h.leads, List.pairwise_singleton _ _, fun _ _ _ hb hne =>
    absurd (List.mem_singleton.1 hb ▸ htarget) hne⟩

end Placed

/-- The next token is the one whose index is the number of tokens that are passed. -/
theorem getElem?_of_suffix {all : List Token} (h : ts <:+ all) (stop : Token) :
    (all ++ [stop])[all.length - ts.length]? = some (ts.headD stop) := by
  obtain ⟨passed, rfl⟩ := h
  have hlen : (passed ++ ts).length - ts.length = passed.length := by simp
  rw [hlen, List.append_assoc, List.getElem?_append_right (Nat.le_refl _), Nat.sub_self]
  cases ts <;> rfl

/-- Along a course through the tokens of a list, errors can be placed in order. -/
theorem Course.ordered (h : Course stop ts es rest) (hstop : stop.kind = .eof) {all : List Token}
    (hall : ts <:+ all) : ∃ ls : List Placed, ls.map Prod.fst = es ∧
      Placed.Ordered (all ++ [stop]) (all.length - ts.length) (all.length - rest.length) ls := by
  induction h with
  | skip => exact ⟨[], rfl, Placed.ordered_nil⟩
  | @error ts fault hne h _ =>
    have hl : Placed.StandsIn (all ++ [stop])
        (.atToken fault (ts.headD stop), all.length - ts.length) :=
      ⟨_, getElem?_of_suffix hall stop, rfl, h hstop⟩
    exact ⟨[_], rfl, Placed.ordered_singleton hl hne⟩
  | @append ts mid rest es fs h h' ih ih' =>
    obtain ⟨ls, rfl, hls⟩ := ih hall
    obtain ⟨ls', rfl, hls'⟩ := ih' (h.past.suffix.trans hall)
    refine ⟨ls ++ ls', List.map_append, hls.append hls' ?_ ?_⟩
    · exact Nat.sub_le_sub_left h.past.suffix.length_le _
    · exact Nat.sub_le_sub_left h'.past.suffix.length_le _
  | @target t us rest es ht h ih =>
    obtain ⟨ls, rfl, hls⟩ := ih ((List.suffix_cons t us).trans hall)
    have hl : Placed.StandsIn (all ++ [stop])
        (.atToken .invalidAssignmentTarget t, all.length - (t :: us).length) :=
      ⟨t, getElem?_of_suffix hall stop, rfl, ht⟩
    have hlen : (t :: us).length ≤ all.length := hall.length_le
    have hnext : all.length - us.length = all.length - (t :: us).length + 1 := by
      rw [List.length_cons] at hlen ⊢
      omega
    have hrest := Nat.sub_le_sub_left h.past.suffix.length_le all.length
    rw [hnext] at hls hrest
    exact ⟨ls ++ [_], List.map_append, hls.target hrest hl rfl rfl⟩

end Parse

/-- Errors follow the reader. Each of them stands at a token of the list or at the end of input that
is added to it, and at none of a kind that its fault excludes. In the order of the list, these
tokens do not go back, apart from those of wrong assignment targets, each of which stands at an
assignment sign before all errors of other kinds that are listed after it. -/
theorem parse_errors_inOrder (tokens : List Token) :
    ∃ ls : List (ParseError × Nat), ls.map Prod.fst = (parse tokens).2 ∧
      (∀ l ∈ ls, ∃ t, (tokens ++ [endOfTokens tokens])[l.2]? = some t ∧ l.1.IsAt t ∧
        l.1.fault.Fits t.kind) ∧
      ((ls.filter (·.1.fault ≠ .invalidAssignmentTarget)).map Prod.snd).Pairwise (· ≤ ·) ∧
      ls.Pairwise fun a b => a.1.fault = .invalidAssignmentTarget →
        b.1.fault ≠ .invalidAssignmentTarget → a.2 < b.2 := by
  have hcourse := Parse.course_program (endOfTokens tokens) tokens
  obtain ⟨ls, hls, hordered⟩ := hcourse.ordered (kind_endOfTokens tokens) List.suffix_rfl
  refine ⟨ls, hls, hordered.standsIn, ?_, ?_⟩
  · rw [List.pairwise_map, List.pairwise_filter]
    refine hordered.leads.imp fun h _ hb => (h ?_).1
    simpa using hb
  · exact hordered.leads.imp fun h ha hb => (h hb).2 ha

/-- The wrong target in `1 = (2; )` is reported behind the parenthesis that is missing at the
semicolon, and stands before it. -/
example : (parse
    [⟨.integer, "1", some (.integer 1), ⟨0, 1⟩, ⟨1, 1⟩⟩,
      ⟨.symbol .assign, "=", none, ⟨2, 1⟩, ⟨1, 3⟩⟩,
      ⟨.symbol .leftParen, "(", none, ⟨4, 1⟩, ⟨1, 5⟩⟩,
      ⟨.integer, "2", some (.integer 2), ⟨5, 1⟩, ⟨1, 6⟩⟩,
      ⟨.symbol .semicolon, ";", none, ⟨6, 1⟩, ⟨1, 7⟩⟩,
      ⟨.symbol .rightParen, ")", none, ⟨8, 1⟩, ⟨1, 9⟩⟩]).2 =
    [⟨.unexpectedToken .closeParen, ⟨6, 1⟩, ⟨1, 7⟩, ";"⟩,
      ⟨.invalidAssignmentTarget, ⟨2, 1⟩, ⟨1, 3⟩, "="⟩,
      ⟨.expectedExpression, ⟨8, 1⟩, ⟨1, 9⟩, ")"⟩] := rfl

end Scriptlet
