import Scriptlet.Proofs.Text.Splitting
import Scriptlet.Tree.SExpr

/-! S-expressions can be read back from their texts, if their atoms are words or quoted texts. -/
namespace Scriptlet

/-- What can stand behind an S-expression: a separator or a closing parenthesis. -/
def isCloser (c : Char) : Bool := c == ' ' || c == '\n' || c == ')'

/-- Whether the text neither ends before its last character nor begins like anything but a word. -/
def isWord (w : String) : Bool :=
  match w.toList with
  | [] => false
  | c :: cs => c != '(' && c != '"' && (c :: cs).all (!isCloser ·)

theorem isWord_iff {w : String} : isWord w ↔
    ∃ c cs, w.toList = c :: cs ∧ c ≠ '(' ∧ c ≠ '"' ∧ ∀ d ∈ c :: cs, ¬ isCloser d := by
  unfold isWord
  cases w.toList with
  | nil => simp
  | cons c cs => simp [and_assoc]

/-- A word or a quoted text. -/
inductive IsAtom : String → Prop where
  | word {w : String} (h : isWord w) : IsAtom w
  | quoted (s : String) : IsAtom (Text.quoted s)

mutual

/-- All atoms are words or quoted texts. -/
def SExpr.Readable : SExpr → Prop
  | .atom text => IsAtom text
  | .list items => SExpr.AllReadable items

def SExpr.AllReadable : List SExpr → Prop
  | [] => True
  | s :: ss => s.Readable ∧ SExpr.AllReadable ss

end

theorem SExpr.allReadable_append {xs ys : List SExpr} (hx : AllReadable xs) (hy : AllReadable ys) :
    AllReadable (xs ++ ys) := by
  induction xs with
  | nil => exact hy
  | cons x xs ih => exact ⟨hx.1, ih hx.2⟩

/-- The text is empty or goes on with a separator or a closing parenthesis. -/
def Ends (r : List Char) : Prop := ∀ c ∈ r.head?, isCloser c

theorem ends_nil : Ends [] := by simp [Ends]

theorem ends_cons {c : Char} (hc : isCloser c) (r : List Char) : Ends (c :: r) := by
  intro d hd
  cases hd
  exact hc

theorem toList_quoted (s : String) : ∃ cs, (Text.quoted s).toList = '"' :: cs :=
  ⟨_, String.toList_ofList⟩

theorem not_isCloser_of_isWord {w : String} (h : isWord w) : ∀ d ∈ w.toList, !isCloser d := by
  obtain ⟨c, cs, hw, _, _, hc⟩ := isWord_iff.1 h
  simpa [hw] using hc

/-- No word begins like a quoted text. -/
theorem word_append_ne_quoted {w s : String} (h : isWord w) (r r' : List Char) :
    w.toList ++ r ≠ (Text.quoted s).toList ++ r' := by
  obtain ⟨c, cs, hw, _, hc, _⟩ := isWord_iff.1 h
  obtain ⟨ds, hs⟩ := toList_quoted s
  rw [hw, hs]
  exact fun heq => hc (List.cons.inj heq).1

/-- Two atoms at the front of the same text are the same, if both end there. -/
theorem IsAtom.append_inj {a b : String} {r r' : List Char} (ha : IsAtom a) (hb : IsAtom b)
    (hr : Ends r) (hr' : Ends r') (h : a.toList ++ r = b.toList ++ r') : a = b ∧ r = r' := by
  cases ha with
  | word hw =>
    cases hb with
    | word hw' =>
      obtain ⟨hab, hrr⟩ := Text.run_append_inj (not_isCloser_of_isWord hw)
        (not_isCloser_of_isWord hw') (by simpa [Ends] using hr) (by simpa [Ends] using hr') h
      exact ⟨String.toList_inj.1 hab, hrr⟩
    | quoted t => exact absurd h (word_append_ne_quoted hw r r')
  | quoted s =>
    cases hb with
    | word hw => exact absurd h.symm (word_append_ne_quoted hw r' r)
    | quoted t =>
      obtain ⟨hst, hrr⟩ := Text.quoted_prefixFree s t r r' h
      exact ⟨congrArg Text.quoted hst, hrr⟩

/-- An atom is not empty, and its first character tells it from a list and from what can stand
behind one. -/
theorem IsAtom.toList_eq_cons {a : String} (h : IsAtom a) :
    ∃ c cs, a.toList = c :: cs ∧ c ≠ '(' ∧ ¬ isCloser c := by
  cases h with
  | word hw =>
    obtain ⟨c, cs, hw, hp, _, hc⟩ := isWord_iff.1 hw
    exact ⟨c, cs, hw, hp, hc c List.mem_cons_self⟩
  | quoted s =>
    obtain ⟨cs, hs⟩ := toList_quoted s
    exact ⟨'"', cs, hs, by decide, by decide⟩

namespace SExpr

variable {xs ys : List SExpr} {sep : Char} {r r' : List Char}

/-- The S-expressions with a separator before each of them. -/
def tails (sep : Char) (xs : List SExpr) : List Char := xs.flatMap fun x => sep :: x.render.toList

/-- The S-expressions with a separator between any two of them. -/
def joined (sep : Char) : List SExpr → List Char
  | [] => []
  | x :: xs => x.render.toList ++ tails sep xs

theorem toList_intercalate (sep : Char) (xs : List SExpr) :
    (String.intercalate (String.singleton sep) (renderAll xs)).toList = joined sep xs := by
  have hmap : ∀ xs : List SExpr, renderAll xs = xs.map render := by
    intro xs
    induction xs with
    | nil => rfl
    | cons x xs ih => rw [renderAll, ih, List.map_cons]
  cases xs with
  | nil => rfl
  | cons x xs =>
    rw [renderAll, Text.toList_intercalate_cons, hmap, List.flatMap_map, joined, tails]
    simp

theorem toList_render_list (xs : List SExpr) :
    (SExpr.list xs).render.toList = '(' :: joined ' ' xs ++ [')'] := by
  have hjoin := toList_intercalate ' ' xs
  simp only [render, String.toList_append]
  rw [show " " = String.singleton ' ' from rfl, hjoin]
  rfl

theorem ends_tails (hsep : isCloser sep) (hr : Ends r) : Ends (tails sep xs ++ r) := by
  cases xs with
  | nil => exact hr
  | cons x xs => exact ends_cons hsep _

/-- Nothing that is joined looks like the end. -/
theorem not_ends_joined {x : SExpr} (hx : x.Readable) (r : List Char) :
    ¬ Ends (joined sep (x :: xs) ++ r) := by
  have hfirst : ∃ c cs, x.render.toList = c :: cs ∧ ¬ isCloser c := by
    cases x with
    | atom a =>
      obtain ⟨c, cs, ha, _, hc⟩ := IsAtom.toList_eq_cons hx
      exact ⟨c, cs, ha, hc⟩
    | list xs => exact ⟨'(', _, toList_render_list xs, by decide⟩
  obtain ⟨c, cs, hcs, hc⟩ := hfirst
  intro hends
  rw [joined, hcs] at hends
  exact hc (hends c rfl)

/-- Joined S-expressions come apart as they do with a separator in front. -/
theorem joined_append_inj (hx : AllReadable xs) (hy : AllReadable ys) (hr : Ends r) (hr' : Ends r')
    (htails : tails sep xs ++ r = tails sep ys ++ r' → xs = ys ∧ r = r')
    (h : joined sep xs ++ r = joined sep ys ++ r') : xs = ys ∧ r = r' := by
  cases xs with
  | nil =>
    cases ys with
    | nil => exact ⟨rfl, h⟩
    | cons y ys =>
      have hends : Ends (joined sep (y :: ys) ++ r') := h ▸ hr
      exact absurd hends (not_ends_joined hy.1 r')
  | cons x xs =>
    cases ys with
    | nil =>
      have hends : Ends (joined sep (x :: xs) ++ r) := h ▸ hr'
      exact absurd hends (not_ends_joined hx.1 r)
    | cons y ys =>
      apply htails
      exact congrArg (List.cons sep) h

mutual

/-- An S-expression can be split off the front of a text in one way only. -/
theorem render_append_inj : ∀ {s s' : SExpr} {r r' : List Char}, s.Readable → s'.Readable →
    Ends r → Ends r' → s.render.toList ++ r = s'.render.toList ++ r' → s = s' ∧ r = r'
  | .atom a, .atom b, r, r', hs, hs', hr, hr', h => by
    obtain ⟨hab, hrr⟩ := IsAtom.append_inj hs hs' hr hr' h
    exact ⟨congrArg SExpr.atom hab, hrr⟩
  | .atom a, .list ys, r, r', hs, hs', hr, hr', h => by
    obtain ⟨c, cs, ha, hc, _⟩ := IsAtom.toList_eq_cons hs
    rw [render, ha, toList_render_list] at h
    exact absurd (List.cons.inj h).1 hc
  | .list xs, .atom b, r, r', hs, hs', hr, hr', h => by
    obtain ⟨c, cs, hb, hc, _⟩ := IsAtom.toList_eq_cons hs'
    rw [render, hb, toList_render_list] at h
    exact absurd (List.cons.inj h).1.symm hc
  | .list xs, .list ys, r, r', hs, hs', hr, hr', h => by
    rw [toList_render_list, toList_render_list] at h
    simp only [List.cons_append, List.append_assoc, List.cons.injEq, true_and] at h
    have hend : ∀ r : List Char, Ends ([')'] ++ r) := ends_cons (by decide)
    obtain ⟨hxy, hrr⟩ := joined_append_inj hs hs' (hend r) (hend r')
      (tails_append_inj hs hs' (by decide) (hend r) (hend r') (by simp) (by simp)) h
    exact ⟨congrArg SExpr.list hxy, List.append_cancel_left hrr⟩

theorem tails_append_inj : ∀ {xs ys : List SExpr} {sep : Char} {r r' : List Char},
    AllReadable xs → AllReadable ys → isCloser sep → Ends r → Ends r' → r.head? ≠ some sep →
    r'.head? ≠ some sep → tails sep xs ++ r = tails sep ys ++ r' → xs = ys ∧ r = r'
  | [], [], sep, r, r', _, _, _, _, _, _, _, h => ⟨rfl, h⟩
  | [], y :: ys, sep, r, r', _, _, _, _, _, hn, _, h => by
    have hr : r.head? = some sep := congrArg List.head? h
    exact absurd hr hn
  | x :: xs, [], sep, r, r', _, _, _, _, _, _, hn, h => by
    have hr : r'.head? = some sep := congrArg List.head? h.symm
    exact absurd hr hn
  | x :: xs, y :: ys, sep, r, r', hx, hy, hsep, hr, hr', hn, hn', h => by
    simp only [tails, List.flatMap_cons, List.cons_append, List.append_assoc, List.cons.injEq,
      true_and] at h
    obtain ⟨hxy, htail⟩ := render_append_inj hx.1 hy.1 (ends_tails hsep hr) (ends_tails hsep hr') h
    obtain ⟨hxs, hrr⟩ := tails_append_inj hx.2 hy.2 hsep hr hr' hn hn' htail
    exact ⟨by rw [hxy, hxs], hrr⟩

end

/-- S-expressions on lines of their own are determined by the whole text. -/
theorem renderLines_inj (hx : AllReadable xs) (hy : AllReadable ys)
    (h : String.intercalate "\n" (renderAll xs) = String.intercalate "\n" (renderAll ys)) :
    xs = ys := by
  have hchars : joined '\n' xs ++ [] = joined '\n' ys ++ [] := by
    rw [← toList_intercalate, ← toList_intercalate]
    exact congrArg (·.toList ++ []) h
  have htails : tails '\n' xs ++ [] = tails '\n' ys ++ [] → xs = ys ∧ [] = [] :=
    tails_append_inj hx hy (by decide) ends_nil ends_nil (by simp) (by simp)
  exact (joined_append_inj hx hy ends_nil ends_nil htails hchars).1

end SExpr

end Scriptlet
