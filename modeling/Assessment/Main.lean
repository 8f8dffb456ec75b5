import Std.Time.DateTime.Timestamp
import Assessment.Command.Perform

/-
  The command line of the assessment runtime.
-/

------------------------------------------------------------
-- Outside
------------------------------------------------------------

namespace Assessment

/- The present instant. -/
def presentInstant : IO Instant := do
  let stamp ← Std.Time.Timestamp.now
  return ⟨stamp.toNanosecondsSinceUnixEpoch.val⟩

/- The text of a file, or why it cannot be read. -/
def readText (file : String) : IO (Except String String) := do
  match ← (IO.FS.readFile file).toBaseIO with
  | .ok text => return .ok text
  | .error e => return .error (toString e)

/- The texts of the files that arguments may name. -/
def readAll : List String → IO (Keyed (Except String String))
  | [] => return []
  | file :: rest => do
      let text ← readText file
      let others ← readAll rest
      return Keyed.put file text others

/- The files that an invocation reads. -/
def Invocation.files (i : Invocation) : List String :=
  let own :=
    match i.task with
    | .inspect package | .validate package _ => [package]
    | .runItem package _ (.script file) => [package, file]
    | .runItem package _ (.inline _) => [package]
    | .runTest package _ script => [package, script]
  i.config.toList ++ own

/- The files that arguments lead to. -/
def filesOf (args : List String) : List String :=
  match Invocation.parse args with
  | .ok i => i.files
  | .error _ => []

/- What surrounds a task with some arguments. -/
def surroundings (args : List String) : IO Surroundings := do
  let texts ← readAll (filesOf args)
  let now ← presentInstant
  let chance ← IO.rand 0 (twoTo 63)
  return {
    read := fun file =>
      (texts.get? file).getD (.error "no such file")
    now := now
    chance := chance }

end Assessment

/- Replies to the arguments. -/
def main (args : List String) : IO UInt32 := do
  let s ← Assessment.surroundings args
  let reply := Assessment.respond s args
  IO.print reply.out
  IO.eprint reply.err
  return reply.code.toUInt32
