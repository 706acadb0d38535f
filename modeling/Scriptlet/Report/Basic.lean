import Scriptlet.Span

/-! Reports that show an error beside the source text it was found in. -/
namespace Scriptlet

/-- An error message with a labelled place in a source text. -/
structure Report where
  path : String
  source : String
  span : Span
  message : String
  label : String

/-- A way to draw reports: the bytes that it writes, or nothing if they cannot be written. -/
abbrev Drawing := Report → Option ByteArray

/-- A report as a text. It is the plain message if nothing can be written, or if the bytes that are
written are no text. -/
def Report.render (draw : Drawing) (r : Report) : String :=
  match draw r with
  | some bytes => (String.fromUTF8? bytes).getD r.message
  | none => r.message

end Scriptlet
