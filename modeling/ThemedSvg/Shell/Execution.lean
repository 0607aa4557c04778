/-
# Execution of shell scripts

Commands are carried out on the state of the shell. What a script starts runs to its end
before the script goes on, also in pipes and in the background, where each part finds
what the parts before it have written.
-/

import ThemedSvg.Shell.Launch

namespace ThemedSvg.Shell

open Tool (Octets)

namespace Execution

/-- Runs a file as a part of the script. -/
def runFile (executor : Executor) : Builtin := fun args => do
  let (_, args) ← Builtin.options [] [] (args.length + 1) args
  match args with
  | [] => Run.setStatus 0
  | path :: _ =>
      let contents ← Run.contents
      if !path.contains '/' then Run.abort (path ++ ": not found".toList)
      else
        match contents path with
        | .error .isDirectory => Run.setStatus 0
        | .error fault =>
            Run.abort ("cannot open ".toList ++ path ++ ": ".toList ++ openFault fault)
        | .ok text =>
            match ← Run.observe (Run.onBehalfOf path (executor.script false text)) with
            | .ok () | .error .returns => pure ()
            | .error jump => throw jump

/-- Runs its arguments as a script. -/
def evaluate (executor : Executor) (tested : Bool) : Builtin := fun args =>
  let args := if args.head? = some ['-', '-'] then args.drop 1 else args
  executor.script tested (List.intercalate [' '] args)

/-- Runs a program in the place of the shell, if one is named. -/
def replace (executor : Executor) : Builtin := fun args => do
  let (_, args) ← Builtin.options [] [] (args.length + 1) args
  match args with
  | [] => Run.setStatus 0
  | name :: args => become executor name args

/-- The builtin of a name that runs further commands. -/
def runner? (executor : Executor) (tested : Bool) (name : Octets) : Option Builtin :=
  match String.ofList name with
  | "." => some (runFile executor)
  | "eval" => some (evaluate executor tested)
  | "exec" => some (replace executor)
  | "type" => some (describe false)
  | "command" => some describeOne
  | _ => none

/-- Puts variables back to what they were. -/
def restored (before : List (Octets × Option Variable)) (bindings : List (Octets × Variable)) :
    List (Octets × Variable) :=
  before.foldl (fun bindings (name, found) =>
    match found with
    | some found => setEntry name found bindings
    | none => removeEntry name bindings) bindings

/-- Sets variables for as long as something runs. -/
def withVariables (names : List Octets) (run : Run Unit) : Run Unit := do
  let bindings := (← get).bindings
  let before := names.map fun name => (name, bindings.lookup name)
  Run.ensuring run (modify fun state =>
    { state with bindings := restored before state.bindings })

/-- Calls a function with texts of its own. -/
def callFunction (executor : Executor) (tested : Bool) (body : Command) (args : List Octets) :
    Run Unit := do
  let outer ← get
  set { outer with params := args, locals := some [], loops := 0 }
  let restore : Run Unit := modify fun state =>
    { state with
      params := outer.params
      locals := outer.locals
      loops := outer.loops
      bindings := restored (state.locals.getD []) state.bindings }
  match ← Run.observe (executor.command tested body) with
  | .ok () | .error .returns => restore
  | .error jump =>
      restore
      throw jump

/-- Runs a builtin. Its faults stay its own unless it is special. -/
def runBuiltin (name : Octets) (special : Bool) (run : Run Unit) : Run Unit := do
  match ← Run.observe (Run.onBehalfOf name run) with
  | .ok () => pure ()
  | .error .fails => if special then throw .fails else pure ()
  | .error jump => throw jump

/-- Remembers that a program was found by its name. -/
def locate (name : Octets) : Run Unit :=
  modify fun state =>
    if name.contains '/' || state.located.contains name then state
    else { state with located := name :: state.located }

/-- Looks for the programs of a pipe, as far as their names are known without running it. -/
def locateAll (executor : Executor) (commands : List Command) : Run Unit := do
  for found in commands do
    match found with
    | .simple _ _ (word :: _) _ =>
        match plainText? word with
        | some name =>
            match ← targetOf (runner? executor false) true name with
            | .program _ => locate name
            | _ => pure ()
        | none => pure ()
    | _ => pure ()

/-- The words of a command as they are traced. -/
def traceLine (assignments : List (Octets × Octets)) (words : List Octets) : Run Unit := do
  if ← Run.hasOption 'x' then
    let start := (← Run.valueOf? "PS4".toList).getD []
    let set := assignments.map fun (name, value) => name ++ '=' :: value
    let _ ← Run.write 2 (start ++ List.intercalate [' '] (set ++ words) ++ ['\n'])

/-- The builtins whose arguments can be assignments, in which nothing is cut. -/
def declaring : List String := ["alias", "export", "local", "readonly"]

/-- The fields of words. Behind some commands what looks like an assignment is one. -/
def wordFields (executor : Executor) (words : List Word) : Run (List Octets) := do
  let mut fields : List Octets := []
  for word in words do
    let (command, _) := behindCommand fields.length fields
    let declares := command.head?.any fun name => declaring.contains (String.ofList name)
    if declares && (assignment? word).isSome then
      fields := fields ++ [← Expansion.text (capture executor) word]
    else fields := fields ++ (← Expansion.fields (capture executor) word)
  return fields

/-- The values of assignments, each set as soon as it is known. -/
def assignAll (executor : Executor) : List (Octets × Word) → Run (List (Octets × Octets))
  | [] => return []
  | (name, word) :: rest => do
      let value ← Expansion.text (capture executor) word
      Run.assign name value
      return (name, value) :: (← assignAll executor rest)

/-- Runs a simple command. -/
def simple (executor : Executor) (tested : Bool) (line : Nat) (assignments : List (Octets × Word))
    (words : List Word) (redirects : List Redirect) : Run Unit := do
  modify fun state => { state with line := line, substituted := 0 }
  let fields ← wordFields executor words
  let (inner, stripped) := behindCommand fields.length fields
  let special := !stripped && inner.head?.any isSpecial
  let aimed ← aim executor redirects
  let before := (← get).streams
  let errors := before.lookup 2
  let persists := fields.isEmpty || special
  let restore : Run Unit := modify fun state => { state with streams := before }
  let keepsStreams := inner = ["exec".toList]
  if !(← redirectAll aimed) then
    restore
    if special then throw .fails
  else
    let body : Run Unit := do
      let found ← assignAll executor assignments
      let after := (← get).streams
      if let some errors := errors then setStream 2 errors
      traceLine found fields
      modify fun state => { state with streams := after }
      match inner with
      | [] =>
          modify fun state => { state with status := state.substituted }
      | name :: args =>
          match ← targetOf (runner? executor tested) (!stripped) name with
          | .function function => callFunction executor tested function args
          | .builtin run => runBuiltin name special (run args)
          | .program program => do
              locate name
              let exit ← runProgram executor program args
              if !keepsStreams then restore
              keepExit exit
          | .missing status reason =>
              Run.complain (name ++ ": ".toList ++ reason)
              Run.setStatus status
    let body := if persists then body else withVariables (assignments.map Prod.fst) body
    Run.ensuring body (if keepsStreams then pure () else restore)

/-- Runs the commands of a pipe, each on what the one before it has written. All of them
start with the same status. -/
def pipe (executor : Executor) (status : Nat) : List Command → Run Unit
  | [] => pure ()
  | [last] => do
      Run.setStatus status
      apart executor (executor.command false last)
  | first :: rest => do
      let number ← Run.newOutput
      Run.setStatus status
      apart executor do
        setStream 1 (.output number)
        executor.command false first
      let input ← Run.newInput (← Run.written number)
      let before := (← get).streams
      setStream 0 input
      Run.ensuring (pipe executor status rest)
        (modify fun state => { state with streams := before })

/-- What a jump means to the loop it meets: to go on, or to end; other jumps leave it. -/
def meetLoop (jump : Jump) : Run Bool := do
  match jump with
  | .breaks count =>
      if 1 < count then throw (.breaks (count - 1)) else return false
  | .continues count =>
      if 1 < count then throw (.continues (count - 1)) else return true
  | jump => throw jump

/-- Runs a round of a loop, and tells whether there can be another. -/
def round (body : Run Unit) : Run Bool := do
  match ← Run.observe body with
  | .ok () => return true
  | .error jump => meetLoop jump

/-- Runs inside of a loop. -/
def inLoop (run : Run Unit) : Run Unit := do
  modify fun state => { state with loops := state.loops + 1 }
  Run.ensuring run (modify fun state => { state with loops := state.loops - 1 })

/-- Runs a loop with a condition; `status` is that of its last round. `fuel` bounds the
rounds. -/
def loop (executor : Executor) (tested untilTrue : Bool) (test body : Command) :
    Nat → Nat → Run Unit
  | 0, status => Run.setStatus status
  | fuel + 1, status => do
      match ← Run.observe (executor.command true test) with
      | .error jump =>
          if ← meetLoop jump then loop executor tested untilTrue test body fuel status
          else Run.setStatus status
      | .ok () =>
          if ((← get).status = 0) = untilTrue then Run.setStatus status
          else
            let goesOn ← round (executor.command tested body)
            let status := (← get).status
            if goesOn then loop executor tested untilTrue test body fuel status

/-- Runs a loop over texts. -/
def forEach (executor : Executor) (tested : Bool) (name : Octets) (body : Command) :
    List Octets → Run Unit
  | [] => pure ()
  | value :: rest => do
      Run.assign name value
      if ← round (executor.command tested body) then forEach executor tested name body rest

/-- The first case a text fits. -/
def select (executor : Executor) (text : Octets) : List (List Word × Command) → Run (Option Command)
  | [] => return none
  | (patterns, body) :: rest => do
      if ← anyFits patterns then return some body else select executor text rest
where
  anyFits : List Word → Run Bool
    | [] => return false
    | word :: words => do
        let pattern ← Expansion.pattern (capture executor) word
        if pattern.fits text then return true else anyFits words

/-- How many rounds a loop can have. -/
def rounds : Nat := 1000000

/-- Runs a command of which each part is run by the executor. -/
def step (executor : Executor) (tested : Bool) : Command → Run Unit
  | .nothing => pure ()
  | .simple line assignments words redirects => do
      simple executor tested line assignments words redirects
      settle executor (!tested)
  | .pipe commands => do
      locateAll executor commands
      pipe executor (← get).status commands
      settle executor (!tested)
  | .negate inner => do
      executor.command true inner
      modify fun state => { state with status := if state.status = 0 then 1 else 0 }
  | .andThen first second => do
      executor.command true first
      if (← get).status = 0 then executor.command tested second
  | .orElse first second => do
      executor.command true first
      if (← get).status ≠ 0 then executor.command tested second
  | .sequence first second => do
      executor.command tested first
      executor.command tested second
  | .background inner => do
      let input ← Run.newInput []
      apart executor do
        setStream 0 input
        executor.command false inner
      let state ← get
      let process := (state.spawned.map Prod.fst).getD state.process + 1
      set { state with spawned := some (process, state.status), status := 0 }
  | .subshell line inner redirects => do
      modify fun state => { state with line := line }
      let aimed ← aim executor redirects
      apart executor do
        if ← redirectAll aimed then executor.command tested inner
      settle executor (!tested)
  | .redirected line inner redirects => do
      modify fun state => { state with line := line }
      let aimed ← aim executor redirects
      withRedirects aimed (executor.command tested inner)
  | .choose test yes no => do
      executor.command true test
      if (← get).status = 0 then executor.command tested yes
      else
        Run.setStatus 0
        executor.command tested no
  | .loop untilTrue test body => inLoop (loop executor tested untilTrue test body rounds 0)
  | .forEach line name words body => do
      modify fun state => { state with line := line }
      let mut values : List Octets := []
      for word in words do
        values := values ++ (← Expansion.fields (capture executor) word)
      Run.setStatus 0
      inLoop (forEach executor tested name body values)
  | .select line word cases => do
      modify fun state => { state with line := line }
      let text ← Expansion.text (capture executor) word
      let found ← select executor text cases
      match found with
      | some .nothing | none => Run.setStatus 0
      | some body => executor.command tested body
  | .define name body => do
      modify fun state =>
        { state with functions := setEntry name body state.functions, status := 0 }

/-- Runs a command, unless commands are only read. -/
def command (executor : Executor) (tested : Bool) (found : Command) : Run Unit := do
  if !(← Run.hasOption 'n') then step executor tested found

/-- Runs a script line by line. `ran` tells whether there was a command; `fuel` bounds the
lines. -/
def lines (executor : Executor) (tested : Bool) : Nat → Bool → Reader → Run Unit
  | 0, _, _ => pure ()
  | fuel + 1, ran, reader => do
      match StateT.run Parse.line? reader with
      | .error fault =>
          Run.complainAt fault.line fault.message
          Run.setStatus 2
          throw .fails
      | .ok (none, _) => if !ran then Run.setStatus 0
      | .ok (some found, reader) =>
          modify fun state =>
            { state with
              documents := state.documents ++ reader.documents
              nextDocument := reader.nextDocument
              reached := reader.line }
          let isCommand :=
            match found with
            | .nothing => false
            | _ => true
          if isCommand then executor.command tested found
          lines executor tested fuel (ran || isCommand)
            { reader with documents := [], nextDocument := (← get).nextDocument }

/-- Runs a script in the same shell. -/
def script (executor : Executor) (tested : Bool) (text : Octets) : Run Unit := do
  lines executor tested (text.length + 2) false (Reader.start text (← get).nextDocument)

end Execution

end ThemedSvg.Shell
