import Scriptlet.Proofs.Eval.StaticScope

/-! Frames are a way to keep one flat log of bindings: every sequence of operations on variables
gets the same answers from both. -/
namespace Scriptlet

inductive LogEntry where
  /-- A scope begins. -/
  | mark
  | binding (name : String) (value : Value)
deriving DecidableEq

/-- Everything that was bound in the open scopes, the newest entry first. Entries that a newer one
of the same name hides stay in it. -/
abbrev BindingLog := List LogEntry

namespace BindingLog

def enter (l : BindingLog) : BindingLog := .mark :: l

/-- Drops everything up to the first mark, and that one. Without a mark nothing is dropped. -/
def exit (l : BindingLog) : BindingLog :=
  match l.dropWhile (· ≠ .mark) with
  | [] => l
  | _ :: rest => rest

def declare (l : BindingLog) (name : String) (v : Value) : BindingLog := .binding name v :: l

/-- The value of the first entry of that name. -/
def get? : BindingLog → String → Option Value
  | [], _ => none
  | .mark :: l, name => get? l name
  | .binding n v :: l, name => if n = name then some v else get? l name

/-- The log with a new value in the first entry of that name. -/
def overwrite (name : String) (v : Value) : BindingLog → Option BindingLog
  | [] => none
  | .mark :: l => (overwrite name v l).map (.mark :: ·)
  | .binding n u :: l =>
    if n = name then some (.binding n v :: l) else (overwrite name v l).map (.binding n u :: ·)

def assign (l : BindingLog) (name : String) (v : Value) : Except Fault BindingLog :=
  match l.overwrite name v with
  | some l => .ok l
  | none => .error (.undefinedVariable name)

/-- How many scopes are open inside the global one. -/
def marks (l : BindingLog) : Nat := l.count .mark

end BindingLog

/-- What can be asked of variables. -/
inductive ScopeOp where
  | enter
  | exit
  | declare (name : String) (v : Value)
  | assign (name : String) (v : Value)
  | access (name : String)

inductive ScopeAnswer where
  | done
  | refused (fault : Fault)
  | value (v? : Option Value)

/-- A way to keep variables. -/
structure ScopeStore (σ : Type) where
  enter : σ → σ
  exit : σ → σ
  declare : σ → String → Value → σ
  assign : σ → String → Value → Except Fault σ
  get? : σ → String → Option Value

namespace ScopeStore

variable {σ : Type}

/-- An operation that is refused changes nothing. -/
def step (S : ScopeStore σ) (s : σ) : ScopeOp → ScopeAnswer × σ
  | .enter => (.done, S.enter s)
  | .exit => (.done, S.exit s)
  | .declare name v => (.done, S.declare s name v)
  | .assign name v =>
    match S.assign s name v with
    | .ok t => (.done, t)
    | .error fault => (.refused fault, s)
  | .access name => (.value (S.get? s name), s)

/-- The answers to a sequence of operations, and where it ends. -/
def run (S : ScopeStore σ) (s : σ) : List ScopeOp → List ScopeAnswer × σ
  | [] => ([], s)
  | op :: ops =>
    let first := S.step s op
    let rest := S.run first.2 ops
    (first.1 :: rest.1, rest.2)

def ofFrames : ScopeStore Scopes where
  enter := Scopes.enter
  exit := Scopes.exit
  declare := Scopes.declare
  assign := Scopes.assign
  get? := Scopes.get?

def ofLog : ScopeStore BindingLog where
  enter := BindingLog.enter
  exit := BindingLog.exit
  declare := BindingLog.declare
  assign := BindingLog.assign
  get? := BindingLog.get?

end ScopeStore

variable {f : Frame} {fs gs : List Frame} {l : BindingLog} {bs : List (String × Value)}

theorem lookup_cons_eq_ite (n x : String) (u : Value) (bs : List (String × Value)) :
    ((n, u) :: bs).lookup x = if n = x then some u else bs.lookup x := by
  by_cases hx : x = n
  · rw [hx, List.lookup_cons_self, if_pos rfl]
  · have hb : (x == n) = false := beq_false_of_ne hx
    rw [List.lookup_cons, hb, if_neg (Ne.symm hx)]

namespace Frame

theorem get?_insert (f : Frame) (name x : String) (v : Value) :
    (f.insert name v).get? x = if name = x then some v else f.get? x := by
  induction f with
  | nil => exact lookup_cons_eq_ite name x v []
  | cons b f ih =>
    obtain ⟨n, u⟩ := b
    unfold get? at ih ⊢
    unfold insert
    by_cases hn : n = name
    · rw [if_pos hn, lookup_cons_eq_ite, lookup_cons_eq_ite, hn]
      split <;> rfl
    · rw [if_neg hn, lookup_cons_eq_ite, lookup_cons_eq_ite, ih]
      by_cases hx : n = x
      · have hne : name ≠ x := fun h => hn (hx.trans h.symm)
        rw [if_pos hx, if_neg hne, if_pos hx]
      · rw [if_neg hx, if_neg hx]

/-- The frame and the bindings, of which only the first of each name counts, agree. -/
def Shows (f : Frame) (bs : List (String × Value)) : Prop := ∀ x, f.get? x = bs.lookup x

/-- A name that is bound again hides its older binding. -/
theorem Shows.declare (h : f.Shows bs) (name : String) (v : Value) :
    (f.insert name v).Shows ((name, v) :: bs) := by
  intro x
  rw [get?_insert, lookup_cons_eq_ite, h x]

theorem Shows.contains_eq (h : f.Shows bs) (name : String) :
    f.contains name = (bs.lookup name).isSome := by
  rw [← isSome_get?, h name]

end Frame

namespace BindingLog

/-- The entries of one scope. -/
def entries (bs : List (String × Value)) : BindingLog := bs.map fun b => .binding b.1 b.2

private theorem get?_entries_append (bs : List (String × Value)) (l : BindingLog) (x : String) :
    get? (entries bs ++ l) x = (bs.lookup x).or (get? l x) := by
  induction bs with
  | nil => rfl
  | cons b bs ih =>
    obtain ⟨n, u⟩ := b
    change (if n = x then some u else get? (entries bs ++ l) x) = _
    rw [lookup_cons_eq_ite, ih]
    split <;> rfl

private theorem dropWhile_entries_append (bs : List (String × Value)) (l : BindingLog) :
    (entries bs ++ l).dropWhile (· ≠ .mark) = l.dropWhile (· ≠ .mark) := by
  induction bs with
  | nil => rfl
  | cons b bs ih => exact ih

private theorem marks_entries_append (bs : List (String × Value)) (l : BindingLog) :
    marks (entries bs ++ l) = marks l := by
  induction bs with
  | nil => rfl
  | cons b bs ih =>
    have hne : LogEntry.binding b.1 b.2 ≠ .mark := LogEntry.noConfusion
    exact (List.count_cons_of_ne hne).trans ih

/-- Either the scope binds the name, and the first entry of that name is overwritten, or the search
goes on behind it. -/
theorem overwrite_entries_append (bs : List (String × Value)) (l : BindingLog) (name : String)
    (v : Value) :
    (∃ cs, overwrite name v (entries bs ++ l) = some (entries cs ++ l) ∧
        (bs.lookup name).isSome ∧ ∀ x, cs.lookup x = if name = x then some v else bs.lookup x) ∨
      overwrite name v (entries bs ++ l) = (overwrite name v l).map (entries bs ++ ·) ∧
        bs.lookup name = none := by
  induction bs with
  | nil =>
    right
    exact ⟨(congrFun Option.map_id (overwrite name v l)).symm, rfl⟩
  | cons b bs ih =>
    obtain ⟨n, u⟩ := b
    have hstep : overwrite name v (entries ((n, u) :: bs) ++ l) =
        if n = name then some (.binding n v :: (entries bs ++ l))
        else (overwrite name v (entries bs ++ l)).map (.binding n u :: ·) := rfl
    by_cases hn : n = name
    · left
      refine ⟨(n, v) :: bs, ?_, ?_, fun x => ?_⟩
      · rw [hstep, if_pos hn]
        rfl
      · rw [lookup_cons_eq_ite, if_pos hn]
        rfl
      · rw [lookup_cons_eq_ite, lookup_cons_eq_ite, hn]
        split <;> rfl
    · rw [hstep, if_neg hn, lookup_cons_eq_ite, if_neg hn]
      obtain ⟨cs, hcs, hsome, hlookup⟩ | ⟨hover, hnone⟩ := ih
      · left
        refine ⟨(n, u) :: cs, ?_, hsome, fun x => ?_⟩
        · rw [hcs]
          rfl
        · rw [lookup_cons_eq_ite, lookup_cons_eq_ite, hlookup]
          by_cases hx : n = x
          · have hne : name ≠ x := fun h => hn (hx.trans h.symm)
            rw [if_pos hx, if_neg hne, if_pos hx]
          · rw [if_neg hx, if_neg hx]
      · right
        refine ⟨?_, hnone⟩
        rw [hover, Option.map_map]
        rfl

/-- Each frame agrees with the entries behind one mark. The entries of the global frame have no mark
before them in a log, so frames are compared with a log to which a mark was added. -/
inductive Models : List Frame → BindingLog → Prop where
  | nil : Models [] []
  | cons {f : Frame} {bs : List (String × Value)} {fs : List Frame} {l : BindingLog}
      (h : f.Shows bs) (hm : Models fs l) : Models (f :: fs) (.mark :: (entries bs ++ l))

theorem Models.enter (h : Models fs l) : Models ([] :: fs) (.mark :: l) := by
  have hshows : Frame.Shows [] [] := fun _ => rfl
  exact .cons hshows h

theorem models_empty : Models Scopes.empty.frames [.mark] := .enter .nil

theorem Models.declare (h : Models (f :: fs) (.mark :: l)) (name : String) (v : Value) :
    Models (f.insert name v :: fs) (.mark :: l.declare name v) := by
  cases h with
  | cons hf hm => exact .cons (hf.declare name v) hm

theorem Models.exit {s : Scopes} (h : Models s.frames (.mark :: l)) :
    Models s.exit.frames (.mark :: l.exit) := by
  obtain ⟨f, fs⟩ := s
  cases id h with
  | cons hf hm =>
    rename_i bs l
    have hdrop := dropWhile_entries_append bs l
    unfold BindingLog.exit
    cases hm with
    | nil =>
      rw [hdrop]
      exact h
    | cons hf' hm' =>
      rw [hdrop]
      exact .cons hf' hm'

theorem Models.get?_eq (h : Models fs l) (x : String) : fs.findSome? (·.get? x) = l.get? x := by
  induction h with
  | nil => rfl
  | cons hf hm ih =>
    rename_i f bs fs l
    have hlog : get? (.mark :: (entries bs ++ l)) x = (bs.lookup x).or (get? l x) :=
      get?_entries_append bs l x
    rw [List.findSome?_cons, hf x, ih, hlog]
    cases bs.lookup x <;> rfl

theorem Models.length_eq (h : Models fs l) : fs.length = l.marks := by
  induction h with
  | nil => rfl
  | cons hf hm ih =>
    rename_i f bs fs l
    have hmark : marks (.mark :: (entries bs ++ l)) = marks (entries bs ++ l) + 1 :=
      List.count_cons_self
    rw [List.length_cons, ih, hmark, marks_entries_append]

/-- Frames and log find the same binding to overwrite, or none. -/
theorem Models.assign (h : Models fs l) (name : String) (v : Value) :
    (∃ gs l', Scopes.assignFrames name v fs = some gs ∧ l.overwrite name v = some l' ∧
        Models gs l') ∨
      Scopes.assignFrames name v fs = none ∧ l.overwrite name v = none := by
  induction h with
  | nil => exact .inr ⟨rfl, rfl⟩
  | cons hf hm ih =>
    rename_i f bs fs l
    have hmark : overwrite name v (.mark :: (entries bs ++ l)) =
        (overwrite name v (entries bs ++ l)).map (.mark :: ·) := rfl
    have hframes : Scopes.assignFrames name v (f :: fs) =
        if (bs.lookup name).isSome then some (f.insert name v :: fs)
        else (Scopes.assignFrames name v fs).map (f :: ·) := by
      rw [Scopes.assignFrames, hf.contains_eq name]
    obtain ⟨cs, hcs, hsome, hlookup⟩ | ⟨hover, hnone⟩ := overwrite_entries_append bs l name v
    · have hshows : (f.insert name v).Shows cs := by
        intro x
        rw [Frame.get?_insert, hlookup, hf x]
      rw [hframes, if_pos hsome, hmark, hcs]
      exact .inl ⟨_, _, rfl, rfl, .cons hshows hm⟩
    · have hnot : ¬ (bs.lookup name).isSome := by simp [hnone]
      rw [hframes, if_neg hnot, hmark, hover]
      obtain ⟨gs, l', hgs, hl', hm'⟩ | ⟨hgs, hl'⟩ := ih
      · rw [hgs, hl']
        exact .inl ⟨_, _, rfl, rfl, .cons hf hm'⟩
      · rw [hgs, hl']
        exact .inr ⟨rfl, rfl⟩

end BindingLog

namespace Scopes

variable {s : Scopes} {name : String} {v : Value}

/-- The innermost frame is searched like the others. -/
theorem assign_of_some (h : assignFrames name v s.frames = some gs) :
    ∃ t, s.assign name v = .ok t ∧ t.frames = gs := by
  rw [frames, assignFrames] at h
  unfold assign
  by_cases hi : s.inner.contains name
  · rw [if_pos hi] at h ⊢
    exact ⟨_, rfl, Option.some.inj h⟩
  · rw [if_neg hi] at h ⊢
    obtain ⟨fs, hfs, rfl⟩ := Option.map_eq_some_iff.1 h
    rw [hfs]
    exact ⟨_, rfl, rfl⟩

theorem assign_of_none (h : assignFrames name v s.frames = none) :
    s.assign name v = .error (.undefinedVariable name) := by
  rw [frames, assignFrames] at h
  unfold assign
  by_cases hi : s.inner.contains name
  · rw [if_pos hi] at h
    cases h
  · rw [if_neg hi] at h ⊢
    rw [Option.map_eq_none_iff.1 h]

end Scopes

/-- An assignment succeeds for both, or it is refused by both for the same reason. -/
theorem BindingLog.Models.assign_scopes {s : Scopes} (h : Models s.frames (.mark :: l))
    (name : String) (v : Value) :
    (∃ t l', s.assign name v = .ok t ∧ l.assign name v = .ok l' ∧
        Models t.frames (.mark :: l')) ∨
      ∃ fault, s.assign name v = .error fault ∧ l.assign name v = .error fault := by
  have hmark : overwrite name v (.mark :: l) = (overwrite name v l).map (.mark :: ·) := rfl
  have hassign := h.assign name v
  rw [hmark] at hassign
  unfold BindingLog.assign
  obtain ⟨gs, l₁, hgs, hl, hm⟩ | ⟨hgs, hl⟩ := hassign
  · obtain ⟨l', hover, rfl⟩ := Option.map_eq_some_iff.1 hl
    obtain ⟨t, hs, rfl⟩ := Scopes.assign_of_some hgs
    rw [hover]
    exact .inl ⟨t, l', hs, rfl, hm⟩
  · rw [Option.map_eq_none_iff.1 hl]
    exact .inr ⟨_, Scopes.assign_of_none hgs, rfl⟩

namespace ScopeStore

open BindingLog (Models)

variable {σ : Type} {S : ScopeStore σ} {s t : σ} {name : String} {v : Value}

theorem step_assign_of_ok (h : S.assign s name v = .ok t) :
    S.step s (.assign name v) = (.done, t) := by
  rw [step, h]

theorem step_assign_of_error {fault : Fault} (h : S.assign s name v = .error fault) :
    S.step s (.assign name v) = (.refused fault, s) := by
  rw [step, h]

/-- Frames and log give the same answer to an operation, and they go on alike. -/
theorem step_models {s : Scopes} (h : Models s.frames (.mark :: l)) (op : ScopeOp) :
    (ofFrames.step s op).1 = (ofLog.step l op).1 ∧
      Models (ofFrames.step s op).2.frames (.mark :: (ofLog.step l op).2) := by
  cases op with
  | enter => exact ⟨rfl, h.enter⟩
  | exit => exact ⟨rfl, h.exit⟩
  | declare name v => exact ⟨rfl, h.declare name v⟩
  | access name => exact ⟨congrArg ScopeAnswer.value (h.get?_eq name), h⟩
  | assign name v =>
    obtain ⟨t, l', hs, hl, hm⟩ | ⟨fault, hs, hl⟩ := h.assign_scopes name v
    · rw [step_assign_of_ok (S := ofFrames) hs, step_assign_of_ok (S := ofLog) hl]
      exact ⟨rfl, hm⟩
    · rw [step_assign_of_error (S := ofFrames) hs, step_assign_of_error (S := ofLog) hl]
      exact ⟨rfl, h⟩

/-- What one operation keeps, a sequence of them keeps. -/
theorem run_models {s : Scopes} (h : Models s.frames (.mark :: l)) (ops : List ScopeOp) :
    (ofFrames.run s ops).1 = (ofLog.run l ops).1 ∧
      Models (ofFrames.run s ops).2.frames (.mark :: (ofLog.run l ops).2) := by
  induction ops generalizing s l with
  | nil => exact ⟨rfl, h⟩
  | cons op ops ih =>
    obtain ⟨hanswer, hnext⟩ := step_models h op
    obtain ⟨hanswers, hend⟩ := ih hnext
    refine ⟨?_, hend⟩
    simp only [run, hanswer, hanswers]

end ScopeStore

/-- Frames refine a binding log. From the beginning on, every sequence of operations, with any
number of scopes left too often, gets the same answers from both, and the depth is the number of
marks and one. -/
theorem Scopes.run_eq_log (ops : List ScopeOp) :
    (ScopeStore.ofFrames.run .empty ops).1 = (ScopeStore.ofLog.run [] ops).1 ∧
      (ScopeStore.ofFrames.run .empty ops).2.depth =
        (ScopeStore.ofLog.run [] ops).2.marks + 1 := by
  obtain ⟨hanswers, hend⟩ := ScopeStore.run_models BindingLog.models_empty ops
  refine ⟨hanswers, ?_⟩
  have hlength := hend.length_eq
  have hmark (l : BindingLog) : BindingLog.marks (.mark :: l) = l.marks + 1 := List.count_cons_self
  rw [hmark] at hlength
  exact hlength

-- The second `exit` finds no mark, and leaves the entry of the global scope.
example :
    ScopeStore.ofLog.run []
        [.declare "x" (.integer 1), .enter, .declare "x" (.integer 2), .assign "x" (.integer 3),
          .access "x", .exit, .exit, .access "x", .assign "y" (.integer 4)] =
      ([.done, .done, .done, .done, .value (some (.integer 3)), .done, .done,
          .value (some (.integer 1)), .refused (.undefinedVariable "y")],
        [.binding "x" (.integer 1)]) := rfl

end Scriptlet
