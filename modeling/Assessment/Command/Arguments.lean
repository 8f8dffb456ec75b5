import Assessment.Number.Numeral

/-
  The arguments of the command line.

  Arguments are read from left to right. What comes first
  wins: a request for help, or a misuse. Options that any
  command takes may stand on both sides of its name, where
  those after it are preferred; at each side an option is
  given once.

  Key definitions include:
    * `Task`, what a command is to do
    * `Invocation`, a task with the options for all tasks
    * `Invocation.parse`
-/

------------------------------------------------------------
-- Invocations
------------------------------------------------------------

namespace Assessment

/- The form of what a command writes. -/
inductive Form where
  | text
  | json
deriving DecidableEq, Repr

/- The form with a name. -/
def Form.ofName? : String → Option Form
  | "text" => some .text
  | "json" => some .json
  | _ => none

/- Where the responses of an item run come from. -/
inductive ResponseSource where
  | inline (texts : List String)
  | script (file : String)
deriving DecidableEq, Repr

/- What a command is to do. -/
inductive Task where
  | inspect (package : String)
  | validate (package : String) (passes : Option String)
  | runItem (package item : String) (source : ResponseSource)
  | runTest (package test script : String)
deriving DecidableEq, Repr

/- A task and the options that every task has. -/
structure Invocation where
  form : Form
  quiet : Bool
  config : Option String
  seed : Option Nat
  task : Task
deriving DecidableEq, Repr

/- Why arguments are not an invocation. -/
inductive Stop where
  | misuse
  | help
  | version
deriving DecidableEq, Repr

------------------------------------------------------------
-- Names
------------------------------------------------------------

/- The names of tasks. -/
inductive TaskName where
  | inspect
  | validate
  | runItem
  | runTest
deriving DecidableEq, Repr

/- The task name that a word is. -/
def TaskName.ofWord? : String → Option TaskName
  | "inspect" => some .inspect
  | "validate" => some .validate
  | "run-item" => some .runItem
  | "run-test" => some .runTest
  | _ => none

/- The options. -/
inductive OptionName where
  | output
  | quiet
  | config
  | seed
  | logLevel
  | passes
  | responses
  | run
deriving DecidableEq, Repr

/- The option with a name, for a task or before any. -/
def OptionName.ofName? (task : Option TaskName) :
    String → Option OptionName
  | "output" => some .output
  | "quiet" => some .quiet
  | "config" => some .config
  | "seed" => some .seed
  | "log-level" => some .logLevel
  | "passes" =>
      if task == some .validate then some .passes else none
  | "responses" =>
      if task == some .runItem then some .responses else none
  | "run" =>
      if task == some .runItem || task == some .runTest then
        some .run
      else none
  | _ => none

------------------------------------------------------------
-- Single Arguments
------------------------------------------------------------

/- The shape of an argument. -/
inductive Shaped where
  /- Two hyphens, after which nothing is an option. -/
  | ending
  | long (name : String) (value : Option String)
  | short (letter : Char)
  | word
deriving DecidableEq, Repr

/- The text before the first equals sign and the one after. -/
def splitAtEquals : List Char → List Char × Option (List Char)
  | [] => ([], none)
  | c :: rest =>
      if c == '=' then ([], some rest)
      else
        let (name, value) := splitAtEquals rest
        (c :: name, value)

/- The shape of an argument; one hyphen alone is a word. -/
def shapeOf (arg : String) : Shaped :=
  match arg.toList with
  | ['-', '-'] => .ending
  | '-' :: '-' :: rest =>
      let (name, value) := splitAtEquals rest
      .long (String.ofList name) (value.map String.ofList)
  | '-' :: c :: _ => .short c
  | _ => .word

------------------------------------------------------------
-- Collected Options
------------------------------------------------------------

/- What has been given at one side of the name of a task. -/
structure Given where
  form : Option Form := none
  quiet : Bool := false
  config : Option String := none
  seed : Option Nat := none
  logLevel : Option String := none
  passes : Option String := none
  responses : List String := []
  script : Option String := none
  words : List String := []
deriving DecidableEq, Repr

/- A value that has not been given yet. -/
def once (earlier : Option α) (value : Option α) :
    Except Stop (Option α) :=
  match earlier, value with
  | none, some v => .ok (some v)
  | _, _ => .error .misuse

/- The path that a text is, which is never empty. -/
def filePath? (text : String) : Option String :=
  if text.isEmpty then none else some text

namespace Given

/- Takes the value of an option. -/
def set (g : Given) (name : OptionName) (value : String) :
    Except Stop Given :=
  match name with
  | .output => do
      let form ← once g.form (Form.ofName? value)
      return { g with form := form }
  | .quiet =>
      if g.quiet then .error .misuse
      else .ok { g with quiet := true }
  | .config => do
      let config ← once g.config (filePath? value)
      return { g with config := config }
  | .seed => do
      let seed ← once g.seed (Numeral.count? value.toList)
      return { g with seed := seed }
  | .logLevel => do
      let level ← once g.logLevel (some value)
      return { g with logLevel := level }
  | .passes => do
      let passes ← once g.passes (some value)
      return { g with passes := passes }
  | .responses =>
      .ok { g with responses := g.responses ++ [value] }
  | .run => do
      let script ← once g.script (filePath? value)
      return { g with script := script }

/- The number of words that a task takes. -/
def wordCount : TaskName → Nat
  | .inspect | .validate => 1
  | .runItem | .runTest => 2

/- Takes a word; the first one is a path. -/
def takeWord (g : Given) (task : TaskName) (word : String) :
    Except Stop Given :=
  let isPath := g.words.isEmpty
  if wordCount task ≤ g.words.length ||
      (isPath && word.isEmpty) then
    .error .misuse
  else .ok { g with words := g.words ++ [word] }

end Given

------------------------------------------------------------
-- Reading Arguments
------------------------------------------------------------

/- How far the arguments have been read. -/
structure Reading where
  outer : Given := {}
  task : Option TaskName := none
  inner : Given := {}
  onlyWords : Bool := false
deriving DecidableEq, Repr

namespace Reading

/- Takes the value of an option where it was given. -/
def set (r : Reading) (name : OptionName) (value : String) :
    Except Stop Reading :=
  match r.task with
  | none => do
      let outer ← r.outer.set name value
      return { r with outer := outer }
  | some _ => do
      let inner ← r.inner.set name value
      return { r with inner := inner }

/- What help on some words leads to. -/
def helpOn : List String → Stop
  | [] => .help
  | [word] =>
      if (TaskName.ofWord? word).isSome || word == "help" then
        .help
      else .misuse
  | _ => .misuse

/- Takes a word, which names a task or belongs to one. -/
def takeWord (r : Reading) (word : String) (rest : List String) :
    Except Stop Reading :=
  match r.task with
  | some task => do
      let inner ← r.inner.takeWord task word
      return { r with inner := inner }
  | none =>
      if r.onlyWords then .error .misuse
      else if word == "help" then .error (helpOn rest)
      else
        match TaskName.ofWord? word with
        | some task => .ok { r with task := some task }
        | none => .error .misuse

/- What an option that takes no part in any task leads to. -/
def special (r : Reading) (name : String) : Stop :=
  if name == "help" then .help
  else if name == "version" && r.task.isNone then .version
  else .misuse

/- The option that a letter is short for. -/
def longName : Char → String
  | 'h' => "help"
  | 'V' => "version"
  | _ => ""

/- Whether an argument can be the value of an option. -/
def isValue (arg : String) : Bool :=
  shapeOf arg == .word

/- Reads arguments. -/
def read (r : Reading) : List String → Except Stop Reading
  | [] => .ok r
  | arg :: rest =>
      if r.onlyWords then do read (← r.takeWord arg rest) rest
      else
        match shapeOf arg with
        | .word => do read (← r.takeWord arg rest) rest
        | .ending => read { r with onlyWords := true } rest
        | .short c => .error (r.special (longName c))
        | .long name attached =>
            match OptionName.ofName? r.task name, attached with
            | none, none => .error (r.special name)
            | none, some _ => .error .misuse
            | some .quiet, none => do
                read (← r.set .quiet "") rest
            | some .quiet, some _ => .error .misuse
            | some option, some value => do
                read (← r.set option value) rest
            | some option, none =>
                match rest with
                | [] => .error .misuse
                | value :: more =>
                    if isValue value then do
                      read (← r.set option value) more
                    else .error .misuse

end Reading

------------------------------------------------------------
-- Invocations from Arguments
------------------------------------------------------------

namespace Invocation

/- The task that was asked for, unless something is missing. -/
def taskOf? (name : TaskName) (g : Given) : Option Task :=
  match name, g.words, g.script with
  | .inspect, [package], _ => some (.inspect package)
  | .validate, [package], _ =>
      some (.validate package g.passes)
  | .runItem, [package, item], none =>
      some (.runItem package item (.inline g.responses))
  | .runItem, [package, item], some script =>
      if g.responses.isEmpty then
        some (.runItem package item (.script script))
      else none
  | .runTest, [package, test], some script =>
      some (.runTest package test script)
  | _, _, _ => none

/- The invocation that has been read, unless incomplete. -/
def ofReading? (r : Reading) : Option Invocation := do
  let name ← r.task
  let task ← taskOf? name r.inner
  return {
    form := (r.inner.form.or r.outer.form).getD .text
    quiet := r.inner.quiet || r.outer.quiet
    config := r.inner.config.or r.outer.config
    seed := r.inner.seed.or r.outer.seed
    task := task }

/- The invocation that arguments stand for. -/
def parse (args : List String) : Except Stop Invocation := do
  let r ← Reading.read {} args
  match ofReading? r with
  | some i => return i
  | none => throw .misuse

end Invocation

end Assessment
