import Scriptlet.Session.Arguments

/-! The command line. -/
namespace Scriptlet

/-- All bytes of a stream, up to its end. -/
partial def readBytes (stream : IO.FS.Stream) (read : ByteArray) : IO ByteArray := do
  let chunk ← stream.read 65536
  if chunk.isEmpty then return read
  readBytes stream (read ++ chunk)

/-- More iterations than any loop can go through. -/
def iterationLimit : Nat := Nat.pow 2 62

/-- Standard input is read only by the commands that run programs. -/
def inputOf : Command → IO (List UInt8)
  | .tokenize _ | .parse _ => return []
  | .run | .session => return (← readBytes (← IO.getStdin) .empty).toList

end Scriptlet

open Scriptlet in
def main (args : List String) : IO UInt32 := do
  match Invocation.ofWords? args with
  | none =>
    IO.eprint Invocation.usage
    return 2
  | some ⟨command, path⟩ =>
    let source ← match path with
      | some p => IO.FS.readFile p
      | none => pure ""
    let input ← inputOf command
    match command.outcome iterationLimit (path.getD "") source input with
    | none => return 1
    | some o =>
      IO.print o.stdout
      IO.eprint o.stderr
      return o.exit.toUInt32
