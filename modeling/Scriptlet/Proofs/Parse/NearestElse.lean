import Scriptlet.Proofs.Parse.Input

/-! An `else` belongs to the nearest conditional before it. A statement that ends with a conditional
without `else` is only left where no `else` follows, so none is left for a conditional around it. -/
namespace Scriptlet

namespace Stmt

/-- At its end there is a conditional without `else`, to which an `else` behind the statement would
belong. -/
def endsOpen : Stmt → Bool
  | .ifThen .. => true
  | .ifElse _ _ _ f => f.endsOpen
  | .whileLoop _ _ s | .forRange _ _ _ _ s => s.endsOpen
  | .expr .. | .declare .. | .block .. | .function .. | .ret .. => false

mutual

/-- The statement and all that stand in it. -/
def nested : Stmt → List Stmt
  | s@(.block _ body) | s@(.function _ _ body) => s :: allNested body
  | s@(.ifThen _ _ t) | s@(.whileLoop _ _ t) | s@(.forRange _ _ _ _ t) => s :: t.nested
  | s@(.ifElse _ _ t f) => s :: (t.nested ++ f.nested)
  | s@(.expr ..) | s@(.declare ..) | s@(.ret ..) => [s]

def allNested : List Stmt → List Stmt
  | [] => []
  | s :: ss => s.nested ++ allNested ss

end

theorem mem_allNested {x : Stmt} {ss : List Stmt} : x ∈ allNested ss ↔ ∃ s ∈ ss, x ∈ s.nested := by
  induction ss with
  | nil => simp [allNested]
  | cons s ss ih => simp [allNested, ih]

/-- The node has no `else` that could belong to a conditional inside it. -/
def KeepsElse : Stmt → Prop
  | .ifElse _ _ s _ => ¬ s.endsOpen
  | _ => True

/-- Every `else` in the statement belongs to the nearest conditional. -/
def NearestElse (s : Stmt) : Prop := ∀ x ∈ s.nested, x.KeepsElse

end Stmt

namespace Parse

variable {α β : Type} {x : Parse α} {f : α → Parse β} {R : α → List Token → Prop}
  {Q : β → List Token → Prop} {ts : List Token}

/-- From these tokens the reader fails, or its result and the tokens that it leaves are as `Q`
says. -/
def YieldsFrom (ts : List Token) (x : Parse α) (Q : α → List Token → Prop) : Prop :=
  ∀ stop a, (x stop ts).result = .ok a → Q a (x stop ts).rest

/-- `YieldsFrom` for all tokens. -/
def Yields (x : Parse α) (Q : α → List Token → Prop) : Prop := ∀ ts, YieldsFrom ts x Q

theorem YieldsFrom.bind (hx : YieldsFrom ts x R) (hf : ∀ a mid, R a mid → YieldsFrom mid (f a) Q) :
    YieldsFrom ts (x >>= f) Q := by
  intro stop b hb
  obtain ⟨_, _, hr⟩ | ⟨a, ha, hr⟩ := bind_cases x f stop ts
  · rw [hr] at hb
    cases hb
  · rw [hr] at hb ⊢
    exact hf a _ (hx stop a ha) stop b hb

theorem Yields.bind (hx : Yields x R) (hf : ∀ a mid, R a mid → YieldsFrom mid (f a) Q) :
    Yields (x >>= f) Q := fun ts => (hx ts).bind hf

/-- Whatever is read first. -/
theorem yields_after (hf : ∀ a, Yields (f a) Q) : Yields (x >>= f) Q :=
  fun _ => YieldsFrom.bind (R := fun _ _ => True) (fun _ _ _ => trivial) fun a mid _ => hf a mid

theorem yields_after_option {x : Parse (Option α)} {f : Option α → Parse β}
    (hs : ∀ a, Yields (f (some a)) Q) (hn : Yields (f none) Q) : Yields (x >>= f) Q := by
  refine yields_after fun o => ?_
  cases o with
  | some a => exact hs a
  | none => exact hn

theorem yields_after_bool {x : Parse Bool} {f : Bool → Parse β} (ht : Yields (f true) Q)
    (hf : Yields (f false) Q) : Yields (x >>= f) Q := by
  refine yields_after fun b => ?_
  cases b with
  | true => exact ht
  | false => exact hf

theorem yieldsFrom_pure {a : α} (h : R a ts) : YieldsFrom ts (pure a) R := by
  intro stop a' ha
  cases ha
  exact h

theorem yields_pure {a : α} (h : ∀ ts, R a ts) : Yields (pure a) R :=
  fun ts => yieldsFrom_pure (h ts)

theorem yields_exhausted : Yields exhausted R := by
  intro ts stop a h
  cases h

theorem yieldsFrom_accept_bind {k : TokenKind} {f : Bool → Parse β}
    (ht : ∀ t us, ts = t :: us → t.kind = k → YieldsFrom us (f true) Q)
    (hf : NotNext k ts → YieldsFrom ts (f false) Q) : YieldsFrom ts (accept k >>= f) Q := by
  intro stop b
  rw [accept_bind]
  obtain ⟨t, us, hts, hk, h⟩ | ⟨hn, h⟩ := accept?_cases k stop ts
  · rw [bind_silent h]
    exact ht t us hts hk stop b
  · rw [bind_silent h]
    exact hf hn stop b

/-- A statement with every `else` where it belongs. If it ends open, no `else` follows. -/
structure Closes (s : Stmt) (rest : List Token) : Prop where
  nearest : s.NearestElse
  notNext : s.endsOpen → NotNext (.keyword .elseKw) rest

/-- Statements with every `else` where it belongs. -/
def AllNearest (ss : List Stmt) (_rest : List Token) : Prop := ∀ s ∈ ss, s.NearestElse

variable {expr : Parse Expr} {inner item : Parse Stmt}

theorem closes_ifThen {p : Position} {c : Expr} {s : Stmt} {rest : List Token} (hs : Closes s rest)
    (hn : NotNext (.keyword .elseKw) rest) : Closes (.ifThen p c s) rest :=
  ⟨List.forall_mem_cons.2 ⟨trivial, hs.nearest⟩, fun _ => hn⟩

theorem closes_ifElse {p : Position} {c : Expr} {s f : Stmt} {rest : List Token}
    (hs : s.NearestElse) (ho : ¬ s.endsOpen) (hf : Closes f rest) :
    Closes (.ifElse p c s f) rest :=
  ⟨List.forall_mem_cons.2 ⟨ho, List.forall_mem_append.2 ⟨hs, hf.nearest⟩⟩, hf.notNext⟩

theorem nearest_of_all {ss : List Stmt} (hs : ∀ s ∈ ss, s.NearestElse) :
    ∀ x ∈ Stmt.allNested ss, x.KeepsElse := by
  intro x hx
  obtain ⟨s, hmem, hx⟩ := Stmt.mem_allNested.1 hx
  exact hs s hmem x hx

theorem yields_ifRest (hi : Yields inner Closes) (p : Position) :
    Yields (ifRest expr inner p) Closes := by
  refine yields_after fun c => hi.bind fun s mid hs => yieldsFrom_accept_bind ?_ fun hn => ?_
  · rintro t us rfl ht
    refine (hi us).bind fun f rest hf => yieldsFrom_pure (closes_ifElse hs.nearest ?_ hf)
    -- The `else` that was taken shows that the success branch does not end open.
    exact fun hopen => notNext_cons.1 (hs.notNext hopen) ht
  · exact yieldsFrom_pure (closes_ifThen hs hn)

theorem yields_whileRest (hi : Yields inner Closes) (p : Position) :
    Yields (whileRest expr inner p) Closes :=
  yields_after fun _ => hi.bind fun _ _ hs =>
    yieldsFrom_pure ⟨List.forall_mem_cons.2 ⟨trivial, hs.nearest⟩, hs.notNext⟩

theorem yields_forRest (hi : Yields inner Closes) (p : Position) :
    Yields (forRest expr inner p) Closes := by
  refine yields_after fun _ => yields_after fun _ => yields_after fun _ => yields_after fun _ => ?_
  refine yields_after fun _ => yields_after fun _ => hi.bind fun _ _ hs => ?_
  exact yieldsFrom_pure ⟨List.forall_mem_cons.2 ⟨trivial, hs.nearest⟩, hs.notNext⟩

theorem yields_recover (hi : Yields item Closes) :
    Yields (recover item) fun s? _ => ∀ s ∈ s?, s.NearestElse := by
  intro ts stop s? hs
  obtain ⟨s, hresult, hr⟩ | ⟨_, _, hr⟩ | ⟨_, hr⟩ := recover_cases item stop ts
  · rw [hr] at hs
    cases hs
    exact fun s' hs' => Option.mem_some.1 hs' ▸ (hi ts stop s hresult).nearest
  · rw [hr] at hs
    cases hs
    exact fun s' hs' => absurd hs' (Option.not_mem_none s')
  · rw [hr] at hs
    cases hs

theorem yields_statements {closes : TokenKind → Bool} (hi : Yields item Closes) (n : Nat) :
    Yields (statements closes item n) AllNearest := by
  induction n with
  | zero => exact yields_exhausted
  | succ n ih =>
    refine yields_after fun _ => yields_after_bool (yields_pure fun _ => List.forall_mem_nil _) ?_
    refine (yields_recover hi).bind fun s? mid hs => (ih mid).bind fun ss rest hss => ?_
    refine yieldsFrom_pure (List.forall_mem_append.2 ⟨fun s hmem => ?_, hss⟩)
    exact hs s (Option.mem_toList.1 hmem)

theorem yields_block (hi : Yields item Closes) (n : Nat) : Yields (block item n) AllNearest :=
  yields_after fun _ => (yields_statements hi n).bind fun _ mid hss =>
    yields_after (fun _ => yields_pure fun _ => hss) mid

theorem yields_functionRest (hi : Yields item Closes) (n : Nat) (p : Position) :
    Yields (functionRest item n p) Closes := by
  refine yields_after fun _ => yields_after fun _ => yields_after fun _ => yields_after fun _ => ?_
  refine yields_after fun _ => (yields_block hi n).bind fun body _ hb => ?_
  exact yieldsFrom_pure ⟨List.forall_mem_cons.2 ⟨trivial, nearest_of_all hb⟩, nofun⟩

/-- A statement without others inside it. -/
theorem closes_single {s : Stmt} (hn : s.nested = [s]) (hk : s.KeepsElse) (ho : ¬ s.endsOpen)
    (rest : List Token) : Closes s rest :=
  ⟨by rw [Stmt.NearestElse, hn]; exact List.forall_mem_singleton.2 hk, fun h => absurd h ho⟩

theorem yields_letRest (p : Position) : Yields (letRest expr p) Closes := by
  refine yields_after fun _ => yields_after fun _ => yields_after fun _ => yields_after_bool ?_ ?_
  all_goals
    exact yields_after fun _ => yields_after fun _ => yields_pure (closes_single rfl trivial nofun)

theorem yields_returnRest (p : Position) : Yields (returnRest expr p) Closes := by
  refine yields_after_bool ?_ ?_
  all_goals
    exact yields_after fun _ => yields_after fun _ => yields_pure (closes_single rfl trivial nofun)

theorem yields_expressionStatement : Yields (expressionStatement expr) Closes :=
  yields_after fun _ => yields_after fun _ => yields_after fun _ =>
    yields_pure (closes_single rfl trivial nofun)

theorem yields_statementStep (hs : Yields inner Closes) (hd : Yields item Closes) (n : Nat) :
    Yields (statementStep expr inner item n) Closes := by
  refine yields_after_option (fun t => yields_ifRest hs t.position) ?_
  refine yields_after_option (fun t => yields_whileRest hs t.position) ?_
  refine yields_after_option (fun t => yields_forRest hs t.position) ?_
  refine yields_after_option (fun t => yields_returnRest t.position) ?_
  refine yields_after_bool (yields_after fun t => ?_) yields_expressionStatement
  refine (yields_block hd n).bind fun body _ hb => ?_
  exact yieldsFrom_pure ⟨List.forall_mem_cons.2 ⟨trivial, nearest_of_all hb⟩, nofun⟩

theorem yields_declarationStep (hs : Yields inner Closes) (hd : Yields item Closes) (n : Nat) :
    Yields (declarationStep expr inner item n) Closes := by
  refine yields_after_option (fun t => yields_functionRest hd n t.position) ?_
  refine yields_after_option (fun t => yields_letRest t.position) ?_
  exact yields_statementStep hs hd n

theorem yields_within (n : Nat) :
    Yields (statementWithin n) Closes ∧ Yields (declarationWithin n) Closes := by
  induction n with
  | zero =>
    rw [statementWithin, declarationWithin]
    exact ⟨yields_exhausted, yields_exhausted⟩
  | succ n ih =>
    rw [statementWithin, declarationWithin]
    exact ⟨yields_statementStep ih.1 ih.2 (n + 1), yields_declarationStep ih.1 ih.2 (n + 1)⟩

end Parse

/-- With or without errors, no conditional with an `else` has a success branch to whose end that
`else` could belong. -/
theorem parse_nearestElse (tokens : List Token) (p : Position) (c : Expr) (s f : Stmt)
    (h : .ifElse p c s f ∈ Stmt.allNested (parse tokens).1) : ¬ s.endsOpen := by
  obtain ⟨program, hp, hparse⟩ := parse_eq_input tokens
  rw [hparse] at h
  have hitem := (Parse.yields_within ((input tokens).2.length + 1)).2
  exact Parse.nearest_of_all (Parse.yields_statements hitem _ _ _ program hp) _ h

/-- `if a while b if c x else d; else e;`, without a semicolon behind `x`. -/
def elseTokens : List Token :=
  [⟨.keyword .ifKw, "if", none, ⟨0, 2⟩, ⟨1, 1⟩⟩, ⟨.identifier, "a", none, ⟨3, 1⟩, ⟨1, 4⟩⟩,
    ⟨.keyword .whileKw, "while", none, ⟨5, 5⟩, ⟨1, 6⟩⟩,
    ⟨.identifier, "b", none, ⟨11, 1⟩, ⟨1, 12⟩⟩, ⟨.keyword .ifKw, "if", none, ⟨13, 2⟩, ⟨1, 14⟩⟩,
    ⟨.identifier, "c", none, ⟨16, 1⟩, ⟨1, 17⟩⟩, ⟨.identifier, "x", none, ⟨18, 1⟩, ⟨1, 19⟩⟩,
    ⟨.keyword .elseKw, "else", none, ⟨20, 4⟩, ⟨1, 21⟩⟩,
    ⟨.identifier, "d", none, ⟨25, 1⟩, ⟨1, 26⟩⟩,
    ⟨.symbol .semicolon, ";", none, ⟨26, 1⟩, ⟨1, 27⟩⟩,
    ⟨.keyword .elseKw, "else", none, ⟨28, 4⟩, ⟨1, 29⟩⟩,
    ⟨.identifier, "e", none, ⟨33, 1⟩, ⟨1, 34⟩⟩,
    ⟨.symbol .semicolon, ";", none, ⟨34, 1⟩, ⟨1, 35⟩⟩, ⟨.eof, "", none, ⟨35, 0⟩, ⟨1, 36⟩⟩]

/-- The body of the loop has the first `else`, so that the second one is left for the conditional
around it. -/
theorem parse_nearestElse_elseTokens :
    let body := Stmt.ifElse ⟨1, 14⟩ (.name ⟨1, 17⟩ "c") (.expr ⟨1, 19⟩ (.name ⟨1, 19⟩ "x"))
      (.expr ⟨1, 26⟩ (.name ⟨1, 26⟩ "d"))
    let loop := Stmt.whileLoop ⟨1, 6⟩ (.name ⟨1, 12⟩ "b") body
    let outer := Stmt.ifElse ⟨1, 1⟩ (.name ⟨1, 4⟩ "a") loop (.expr ⟨1, 34⟩ (.name ⟨1, 34⟩ "e"))
    parse elseTokens = ([outer], [⟨.unexpectedToken .expressionEnd, ⟨20, 4⟩, ⟨1, 21⟩, "else"⟩]) ∧
      outer ∈ Stmt.allNested (parse elseTokens).1 ∧ ¬ loop.endsOpen := by
  intro body loop outer
  have hparse : parse elseTokens =
      ([outer], [⟨.unexpectedToken .expressionEnd, ⟨20, 4⟩, ⟨1, 21⟩, "else"⟩]) := rfl
  have houter : outer ∈ Stmt.allNested (parse elseTokens).1 := by
    rw [hparse]
    exact List.mem_cons_self
  exact ⟨hparse, houter, parse_nearestElse elseTokens _ _ _ _ houter⟩

end Scriptlet
