import Scriptlet.Parse.Basic

/-! Readers that succeed without recording an error, and what such a success says about the tokens.
Every basic step has one equivalence here, so that no later proof opens the reader itself. -/
namespace Scriptlet.Parse

variable {α β : Type} {stop t : Token} {ts rest : List Token} {a : α} {b : β} {k : TokenKind}

/-- The reader takes `ts` to the result `a`, leaves `rest` and records nothing. -/
def Reads (p : Parse α) (stop : Token) (ts : List Token) (a : α) (rest : List Token) : Prop :=
  p stop ts = ⟨.ok a, [], rest⟩

theorem reads_of_result {p : Parse α} (ha : (p stop ts).result = .ok a)
    (he : (p stop ts).errors = []) : Reads p stop ts a (p stop ts).rest := by
  rw [Reads, ← ha, ← he]

/-- The first of the tokens, if there is one, is not of the given kind. -/
def NotNext (k : TokenKind) (ts : List Token) : Prop := ∀ t ∈ ts.head?, t.kind ≠ k

@[simp] theorem notNext_nil : NotNext k [] := by simp [NotNext]

@[simp] theorem notNext_cons : NotNext k (t :: ts) ↔ t.kind ≠ k := by simp [NotNext]

theorem NotNext.any_eq_false (h : NotNext k ts) : ts.head?.any (·.kind = k) = false := by
  cases ts with
  | nil => rfl
  | cons t ts => simpa using h

theorem reads_pure {a' : α} : Reads (pure a) stop ts a' rest ↔ a' = a ∧ rest = ts := by
  simp [Reads, pure, eq_comm]

theorem reads_return : Reads (pure a) stop ts a ts := rfl

theorem bind_error {x : Parse α} {f : α → Parse β} {h : Halt} {errors : List ParseError}
    (hx : x stop ts = ⟨.error h, errors, rest⟩) : (x >>= f) stop ts = ⟨.error h, errors, rest⟩ := by
  simp only [bind, hx]

theorem bind_ok {x : Parse α} {f : α → Parse β} {errors : List ParseError}
    (h : x stop ts = ⟨.ok a, errors, rest⟩) : (x >>= f) stop ts =
      ⟨(f a stop rest).result, errors ++ (f a stop rest).errors, (f a stop rest).rest⟩ := by
  simp only [bind, h]

/-- A sequence stops where its first reader does, or goes on from there. -/
theorem bind_cases (x : Parse α) (f : α → Parse β) (stop : Token) (ts : List Token) :
    (∃ h, (x stop ts).result = .error h ∧
      (x >>= f) stop ts = ⟨.error h, (x stop ts).errors, (x stop ts).rest⟩) ∨
    ∃ a, (x stop ts).result = .ok a ∧ (x >>= f) stop ts =
      ⟨(f a stop (x stop ts).rest).result,
        (x stop ts).errors ++ (f a stop (x stop ts).rest).errors,
        (f a stop (x stop ts).rest).rest⟩ := by
  rcases h : x stop ts with ⟨e | a, errors, rest⟩
  · exact .inl ⟨e, rfl, bind_error h⟩
  · exact .inr ⟨a, rfl, bind_ok h⟩

/-- What is done with a result changes nothing else. -/
theorem bind_pure_eq (x : Parse α) (g : α → β) (stop : Token) (ts : List Token) :
    (x >>= fun a => pure (g a)) stop ts =
      ⟨(x stop ts).result.map g, (x stop ts).errors, (x stop ts).rest⟩ := by
  rcases h : x stop ts with ⟨e | a, errors, rest⟩
  · exact bind_error h
  · rw [bind_ok h]
    simp only [pure, List.append_nil]
    rfl

/-- A reader that records nothing hands over to the next one. -/
theorem bind_silent {x : Parse α} {f : α → Parse β} (h : Reads x stop ts a rest) :
    (x >>= f) stop ts = f a stop rest := bind_ok h

theorem reads_bind {x : Parse α} {f : α → Parse β} :
    Reads (x >>= f) stop ts b rest ↔
      ∃ a mid, Reads x stop ts a mid ∧ Reads (f a) stop mid b rest := by
  simp only [Reads, bind]
  rcases x stop ts with ⟨e | a, errors, mid⟩
  · simp
  · cases h : f a stop mid
    simp [and_assoc, and_left_comm, h]

theorem reads_map {x : Parse α} {f : α → β} :
    Reads (f <$> x) stop ts b rest ↔ ∃ a, Reads x stop ts a rest ∧ b = f a := by
  change Reads (x >>= fun a => pure (f a)) stop ts b rest ↔ _
  simp only [reads_bind, reads_pure]
  constructor
  · rintro ⟨a, mid, h, rfl, rfl⟩
    exact ⟨a, h, rfl⟩
  · rintro ⟨a, h, rfl⟩
    exact ⟨a, rest, h, rfl, rfl⟩

theorem reads_looks_bind {test : List Token → Bool} {g : Bool → Parse β} :
    Reads (looks test >>= g) stop ts b rest ↔ Reads (g (test ts)) stop ts b rest := Iff.rfl

theorem reads_current_bind {g : Token → Parse β} :
    Reads (current >>= g) stop ts b rest ↔ Reads (g (ts.headD stop)) stop ts b rest := Iff.rfl

theorem reads_check_bind {g : Bool → Parse β} :
    Reads (check k >>= g) stop ts b rest ↔
      Reads (g (ts.head?.any (·.kind = k))) stop ts b rest := Iff.rfl

theorem reads_skipNewlines_bind {g : Unit → Parse β} :
    Reads (skipNewlines >>= g) stop ts b rest ↔
      Reads (g ()) stop (ts.dropWhile (·.kind = .newline)) b rest := Iff.rfl

theorem not_reads_exhausted : ¬ Reads exhausted stop ts a rest := by
  simp [Reads, exhausted]

theorem not_reads_fail {fault : ParseFault} : ¬ Reads (fail fault) stop ts a rest := by
  simp [Reads, fail]

theorem not_reads_reportAt_bind {fault : ParseFault} {g : Unit → Parse β} :
    ¬ Reads (reportAt fault t >>= g) stop ts b rest := by
  rw [reads_bind]
  rintro ⟨u, mid, h, _⟩
  simp [Reads, reportAt] at h

theorem not_reads_report_bind {fault : ParseFault} {g : Unit → Parse β} :
    ¬ Reads (report fault >>= g) stop ts b rest := by
  rw [reads_bind]
  rintro ⟨u, mid, h, _⟩
  simp [Reads, report, reportAt, bind, current] at h

/-- Looking for a token of a class: it is taken, or it does not stand there. -/
theorem reads_take?_bind {f : Token → Option α} {g : Option α → Parse β} :
    Reads (take? f >>= g) stop ts b rest ↔
      (∃ t us a, ts = t :: us ∧ f t = some a ∧ Reads (g (some a)) stop us b rest) ∨
      ((∀ t ∈ ts.head?, f t = none) ∧ Reads (g none) stop ts b rest) := by
  rw [reads_bind]
  cases ts with
  | nil => simp [Reads, take?, and_assoc]
  | cons t us => cases h : f t <;> simp [Reads, take?, h, and_assoc]

/-- A token that is looked for is taken, or nothing is. -/
theorem take?_cases (f : Token → Option α) (stop : Token) (ts : List Token) :
    (∃ t us a, ts = t :: us ∧ f t = some a ∧ Reads (take? f) stop ts (some a) us) ∨
      Reads (take? f) stop ts none ts := by
  cases ts with
  | nil => exact .inr rfl
  | cons t us =>
    cases h : f t with
    | none => exact .inr (by simp [Reads, take?, h])
    | some a => exact .inl ⟨t, us, a, rfl, h, by simp [Reads, take?, h]⟩

/-- A token of the kind is taken if it stands there, and nothing is taken else. -/
theorem accept?_cases (k : TokenKind) (stop : Token) (ts : List Token) :
    (∃ t us, ts = t :: us ∧ t.kind = k ∧ Reads (accept? k) stop ts (some t) us) ∨
      NotNext k ts ∧ Reads (accept? k) stop ts none ts := by
  cases ts with
  | nil => exact .inr ⟨notNext_nil, rfl⟩
  | cons t us =>
    by_cases h : t.kind = k
    · exact .inl ⟨t, us, rfl, h, by simp [Reads, accept?, take?, h]⟩
    · exact .inr ⟨notNext_cons.2 h, by simp [Reads, accept?, take?, h]⟩

/-- A token of the kind stands there and is left, or another one does. -/
theorem check_cases (k : TokenKind) (stop : Token) (ts : List Token) :
    (∃ t us, ts = t :: us ∧ t.kind = k ∧ Reads (check k) stop ts true ts) ∨
      NotNext k ts ∧ Reads (check k) stop ts false ts := by
  cases ts with
  | nil => exact .inr ⟨notNext_nil, rfl⟩
  | cons t us =>
    by_cases h : t.kind = k
    · exact .inl ⟨t, us, rfl, h, by simp [Reads, check, looks, h]⟩
    · exact .inr ⟨notNext_cons.2 h, by simp [Reads, check, looks, h]⟩

theorem reads_accept?_bind {g : Option Token → Parse β} :
    Reads (accept? k >>= g) stop ts b rest ↔
      (∃ t us, ts = t :: us ∧ t.kind = k ∧ Reads (g (some t)) stop us b rest) ∨
      (NotNext k ts ∧ Reads (g none) stop ts b rest) := by
  rw [accept?, reads_take?_bind]
  cases ts with
  | nil => simp
  | cons t us => by_cases h : t.kind = k <;> simp [h, and_assoc]

theorem reads_accept_bind {g : Bool → Parse β} :
    Reads (accept k >>= g) stop ts b rest ↔
      (∃ t us, ts = t :: us ∧ t.kind = k ∧ Reads (g true) stop us b rest) ∨
      (NotNext k ts ∧ Reads (g false) stop ts b rest) := by
  have h : Reads (accept k >>= g) stop ts b rest ↔
      Reads (accept? k >>= fun o => g o.isSome) stop ts b rest := by
    rw [accept, reads_bind, reads_bind]
    constructor
    · rintro ⟨c, mid, hc, hg⟩
      obtain ⟨o, _, ho, rfl, rfl⟩ := reads_bind.1 hc
      exact ⟨o, mid, ho, hg⟩
    · rintro ⟨o, mid, ho, hg⟩
      exact ⟨o.isSome, mid, reads_bind.2 ⟨o, mid, ho, rfl⟩, hg⟩
  rw [h, reads_accept?_bind]
  rfl

theorem reads_advance_bind {g : Unit → Parse β} (ht : t.kind ≠ .eof) :
    Reads (advance >>= g) stop (t :: ts) b rest ↔ Reads (g ()) stop ts b rest := by
  have h : Reads advance stop (t :: ts) () ts := by simp [Reads, advance, take?, bind, pure, ht]
  rw [Reads, bind_silent h, Reads]

/-- A token that has to be there is taken, or the fault is recorded. -/
theorem require_cases (k : TokenKind) (fault : ParseFault) (stop : Token) (ts : List Token) :
    (∃ t us, ts = t :: us ∧ t.kind = k ∧ Reads (require k fault) stop ts (some t) us) ∨
      NotNext k ts ∧
        require k fault stop ts = ⟨.ok none, [.atToken fault (ts.headD stop)], ts⟩ := by
  obtain ⟨t, us, rfl, ht, h⟩ | ⟨hn, h⟩ := accept?_cases k stop ts
  · exact .inl ⟨t, us, rfl, ht, bind_silent h⟩
  · exact .inr ⟨hn, bind_silent h⟩

/-- An expected token is taken, or the fault is recorded and nothing is taken. -/
theorem expect_cases (x : Expectation) (stop : Token) (ts : List Token) :
    (∃ t us, ts = t :: us ∧ t.kind = x.kind ∧ Reads (expect x) stop ts t us) ∨
      NotNext x.kind ts ∧ expect x stop ts =
        ⟨.ok (ts.headD stop), [.atToken (.unexpectedToken x) (ts.headD stop)], ts⟩ := by
  obtain ⟨t, us, rfl, ht, h⟩ | ⟨hn, h⟩ := require_cases x.kind (.unexpectedToken x) stop ts
  · exact .inl ⟨t, us, rfl, ht, bind_silent h⟩
  · exact .inr ⟨hn, bind_ok h⟩

/-- A token that has to be there and is silently taken stands there. -/
theorem reads_require_bind {fault : ParseFault} {g : Option Token → Parse β} :
    Reads (require k fault >>= g) stop ts b rest ↔
      ∃ t us, ts = t :: us ∧ t.kind = k ∧ Reads (g (some t)) stop us b rest := by
  rw [reads_bind]
  constructor
  · rintro ⟨o, mid, h, hg⟩
    obtain ⟨t, us, rfl, hk, h⟩ | ⟨_, h⟩ := reads_accept?_bind.1 h
    · obtain ⟨rfl, rfl⟩ := reads_pure.1 h
      exact ⟨t, mid, rfl, hk, hg⟩
    · exact absurd h not_reads_report_bind
  · rintro ⟨t, us, rfl, hk, hg⟩
    exact ⟨some t, us, reads_accept?_bind.2 (.inl ⟨t, us, rfl, hk, reads_return⟩), hg⟩

/-- An expected token that is silently taken stands there. -/
theorem reads_expect {x : Expectation} :
    Reads (expect x) stop ts t rest ↔ ts = t :: rest ∧ t.kind = x.kind := by
  rw [expect, reads_require_bind]
  constructor
  · rintro ⟨_, _, rfl, hk, h⟩
    obtain ⟨rfl, rfl⟩ := reads_pure.1 h
    exact ⟨rfl, hk⟩
  · rintro ⟨rfl, hk⟩
    exact ⟨t, rest, rfl, hk, reads_return⟩

theorem reads_expect_bind {x : Expectation} {g : Token → Parse β} :
    Reads (expect x >>= g) stop ts b rest ↔
      ∃ t us, ts = t :: us ∧ t.kind = x.kind ∧ Reads (g t) stop us b rest := by
  simp only [reads_bind, reads_expect, and_assoc]

theorem recover_congr {x y : Parse α} (h : x stop ts = y stop ts) :
    recover x stop ts = recover y stop ts := by
  unfold recover catchFault
  rw [h]

/-- Recovery keeps a result, and goes on behind a fault. -/
theorem recover_cases (x : Parse α) (stop : Token) (ts : List Token) :
    (∃ a, (x stop ts).result = .ok a ∧
      recover x stop ts = ⟨.ok (some a), (x stop ts).errors, (x stop ts).rest⟩) ∨
    (∃ e, (x stop ts).result = .error (.fault e) ∧ recover x stop ts =
      ⟨.ok none, (x stop ts).errors ++ [e], synchronize (x stop ts).rest⟩) ∨
    (x stop ts).result = .error .exhausted ∧
      recover x stop ts = ⟨.error .exhausted, (x stop ts).errors, (x stop ts).rest⟩ := by
  unfold recover catchFault
  rcases x stop ts with ⟨(e | _) | a, errors, rest⟩
  · exact .inr (.inl ⟨e, rfl, rfl⟩)
  · exact .inr (.inr ⟨rfl, rfl⟩)
  · exact .inl ⟨a, rfl, rfl⟩

/-- A reader that records its failure is silent only where it succeeds. -/
theorem reads_catchFault {resume : List Token → List Token} {x : Parse α} {o : Option α} :
    Reads (catchFault resume x) stop ts o rest ↔ ∃ a, o = some a ∧ Reads x stop ts a rest := by
  simp only [Reads, catchFault]
  rcases x stop ts with ⟨(e | _) | a, errors, mid⟩
  · simp
  · simp
  · simp [eq_comm, and_left_comm]

theorem reads_attempt {x : Parse α} {o : Option α} :
    Reads (attempt x) stop ts o rest ↔ ∃ a, o = some a ∧ Reads x stop ts a rest := reads_catchFault

theorem reads_recover {x : Parse α} {o : Option α} :
    Reads (recover x) stop ts o rest ↔ ∃ a, o = some a ∧ Reads x stop ts a rest := reads_catchFault

end Scriptlet.Parse
