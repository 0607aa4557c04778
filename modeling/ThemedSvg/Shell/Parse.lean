/-
# Reading shell scripts

The grammar of commands, read from the front. A script is read line by line, so that a
line is carried out before the next one is looked at, and only then found to be wrong.
-/

import ThemedSvg.Shell.Word

namespace ThemedSvg.Shell

open Tool (Octets)

namespace Parse

/-- Skips blanks and a comment. `fuel` bounds the characters. -/
def skipBlanks : Nat → Parse Unit
  | 0 => pure ()
  | fuel + 1 => do
      match ← peek? with
      | some ' ' | some '\t' => do
          let _ ← raw?
          skipBlanks fuel
      | some '#' =>
          modify fun reader => { reader with rest := reader.rest.dropWhile (· != '\n') }
      | _ => pure ()

/-- Reads what kind of redirection starts with an angle bracket. -/
def arrow (bracket : Char) : Parse Arrow := do
  if bracket = '>' then
    if ← take? '>' then return .into true
    else if ← take? '|' then return .into false
    else if ← take? '&' then return .like
    else return .into false
  else if ← take? '<' then return .document (← take? '-')
  else if ← take? '&' then return .like
  else if ← take? '>' then return .both
  else return .outOf

/-- Reads a word, or a redirection if the word is nothing or a digit in front of an angle
bracket. -/
def wordOrArrow (grammar : Grammar) (enclosure : Enclosure) : Parse Token := do
  let (pieces, quoted) ← grammar.pieces enclosure
  let bracket :=
    match (← get).rest with
    | c :: _ => if c = '<' || c = '>' then some c else none
    | [] => none
  match bracket, plainText? pieces, quoted with
  | some c, some [], false =>
      let _ ← raw?
      return .redirect (if c = '>' then 1 else 0) (← arrow c)
  | some c, some [digit], false =>
      if digit.isDigit then
        let _ ← raw?
        return .redirect (digit.toNat - '0'.toNat) (← arrow c)
      else return .word pieces quoted
  | _, _, _ => return .word pieces quoted

/-- Reads the next token, which can be a word in an enclosure. -/
def tokenIn (grammar : Grammar) (enclosure : Enclosure) : Parse Token := do
  match (← get).putBack with
  | some token =>
      modify fun reader => { reader with putBack := none }
      return token
  | none =>
      skipBlanks (← get).rest.length
      match ← peek? with
      | none => return .endOfFile
      | some '\n' => do
          let _ ← raw?
          return .newline
      | some '&' => do
          let _ ← raw?
          return .operator (if ← take? '&' then .andThen else .background)
      | some '|' => do
          let _ ← raw?
          return .operator (if ← take? '|' then .orElse else .pipe)
      | some ';' => do
          let _ ← raw?
          return .operator (if ← take? ';' then .endCase else .semicolon)
      | some '(' => do
          let _ ← raw?
          return .operator .opening
      | some ')' => do
          let _ ← raw?
          return .operator .closing
      | some _ => wordOrArrow grammar enclosure

/-- Reads the next token as it stands. -/
def rawToken (grammar : Grammar) : Parse Token := tokenIn grammar .bare

/-- The lines up to the one that ends a text behind a command, and how many lines there
are with it. -/
def documentLines (awaited : Awaited) : List Octets → Octets × Nat
  | [] => ([], 0)
  | line :: lines =>
      let line := if awaited.strips then line.dropWhile (· == '\t') else line
      if line = awaited.ending || line = awaited.ending ++ ['\n'] then ([], 1)
      else
        let (text, count) := documentLines awaited lines
        (line ++ text, count + 1)

/-- Reads a text behind a command. -/
def readDocument (grammar : Grammar) (awaited : Awaited) : Parse Unit := do
  let reader ← get
  let lines := Tool.linesOf reader.rest
  let (text, count) := documentLines awaited lines
  let pieces ←
    if awaited.literal then pure [Piece.text text true]
    else do
      let (pieces, _) ← within text reader.line (grammar.pieces .document)
      pure pieces
  modify fun reader =>
    { reader with
      rest := (lines.drop count).flatten
      line := reader.line + ((lines.take count).flatten.filter (· == '\n')).length
      documents := reader.documents ++ [(awaited.number, pieces)] }

/-- Reads all texts behind a command that are awaited. -/
def readDocuments (grammar : Grammar) : Parse Unit := do
  let awaited := (← get).awaited
  modify fun reader => { reader with awaited := [] }
  for one in awaited do readDocument grammar one

/-- Skips the ends of lines in front of a token. `fuel` bounds their number. -/
def pastNewlines (grammar : Grammar) (token : Token) : Nat → Parse Token
  | 0 => return token
  | fuel + 1 => do
      if token.isNewline then
        readDocuments grammar
        pastNewlines grammar (← rawToken grammar) fuel
      else return token

/-- Reads the next token, which is a keyword if it can be one. -/
def token (grammar : Grammar) : Parse Token := do
  return (← rawToken grammar).asKeyword

/-- Reads the next token that is not the end of a line. -/
def tokenPastLines (grammar : Grammar) : Parse Token := do
  let first ← rawToken grammar
  return (← pastNewlines grammar first ((← get).rest.length + 2)).asKeyword

/-- Reads a keyword that has to come. -/
def expectKeyword (grammar : Grammar) (name : String) : Parse Unit := do
  let token ← rawToken grammar
  if token.isKeyword name then pure () else unexpected token (some (.keyword name))

/-- The text of a word in which nothing is replaced. -/
def literalText (word : Word) : Octets :=
  word.flatMap fun piece =>
    match piece with
    | .text chars _ => chars
    | _ => []

/-- Reads the target of a redirection. -/
def redirectTarget (grammar : Grammar) (fd : Nat) (arrow : Arrow) : Parse Redirect := do
  let enclosure :=
    match arrow with
    | .document _ => Enclosure.ending
    | _ => .bare
  match ← tokenIn grammar enclosure with
  | .word word quoted =>
      match arrow with
      | .into appends => return .into fd appends word
      | .outOf => return .outOf fd word
      | .both => return .both fd word
      | .like => return .like fd word
      | .document strips => do
          let number := (← get).nextDocument
          let awaited : Awaited := ⟨number, literalText word, quoted, strips⟩
          modify fun reader =>
            { reader with awaited := reader.awaited ++ [awaited], nextDocument := number + 1 }
          return .document fd number
  | token => unexpected token none

/-- Reads redirections behind the first token. `fuel` bounds their number. -/
def redirects (grammar : Grammar) : Nat → Token → Parse (List Redirect)
  | 0, _ => return []
  | fuel + 1, first => do
      match first with
      | .redirect fd arrow =>
          let redirect ← redirectTarget grammar fd arrow
          return redirect :: (← redirects grammar fuel (← rawToken grammar))
      | token =>
          putBack token
          return []

/-- The builtins whose faults end a script. No function can have such a name. -/
def specialBuiltins : List String :=
  [".", ":", "break", "continue", "eval", "exec", "exit", "export", "local", "readonly", "return",
    "set", "shift", "times", "trap", "unset"]

/-- A simple command while it is read. -/
structure Draft where
  assignments : List (Octets × Word)
  words : List Word
  redirects : List Redirect

/-- Reads the body of a function behind its name and the parenthesis. -/
def function (grammar : Grammar) (command : Parse Command) (name : Word) : Parse Command := do
  let closing ← rawToken grammar
  if !closing.isOperator .closing then unexpected closing (some (.operator .closing))
  else
    match plainText? name with
    | some text =>
        if !isName text || specialBuiltins.contains (String.ofList text) then
          fail "Bad function name"
        else
          let first ← tokenPastLines grammar
          putBack first
          return .define text (← command)
    | none => fail "Bad function name"

/-- Reads a simple command from its words on. `fuel` bounds their number. -/
def simple (grammar : Grammar) (command : Parse Command) (line : Nat) :
    Nat → Draft → Parse Command
  | 0, draft => return .simple line draft.assignments draft.words draft.redirects
  | fuel + 1, draft => do
      match ← rawToken grammar with
      | .word word _ =>
          match assignment? word, draft.words with
          | some assignment, [] =>
              simple grammar command line fuel
                { draft with assignments := draft.assignments ++ [assignment] }
          | _, words => simple grammar command line fuel { draft with words := words ++ [word] }
      | .redirect fd arrow =>
          let redirect ← redirectTarget grammar fd arrow
          simple grammar command line fuel { draft with redirects := draft.redirects ++ [redirect] }
      | token =>
          match token, draft with
          | .operator .opening, ⟨[], [name], []⟩ => function grammar command name
          | _, _ =>
              putBack token
              return .simple line draft.assignments draft.words draft.redirects

/-- Reads the branches of a choice behind its first keyword. `fuel` bounds their number. -/
def branches (grammar : Grammar) : Nat → Parse Command
  | 0 => return .nothing
  | fuel + 1 => do
      let test ← grammar.list
      expectKeyword grammar "then"
      let yes ← grammar.list
      let next ← rawToken grammar
      if next.isKeyword "elif" then return .choose test yes (← branches grammar fuel)
      else if next.isKeyword "else" then return .choose test yes (← grammar.list)
      else
        putBack next
        return .choose test yes .nothing

/-- Reads words up to another token, which stays behind. `fuel` bounds their number. -/
def words (grammar : Grammar) : Nat → Parse (List Word × Token)
  | 0 => return ([], .endOfFile)
  | fuel + 1 => do
      match ← rawToken grammar with
      | .word word _ =>
          let (more, token) ← words grammar fuel
          return (word :: more, token)
      | token => return ([], token)

/-- Reads a loop over words behind its first keyword. -/
def forLoop (grammar : Grammar) (line : Nat) : Parse Command := do
  let name ←
    match ← rawToken grammar with
    | .word word false =>
        match plainText? word with
        | some name => if isName name then pure name else fail "Bad for loop variable"
        | none => fail "Bad for loop variable"
    | _ => fail "Bad for loop variable"
  let next ← tokenPastLines grammar
  let words ←
    if next.isKeyword "in" then do
      let (found, token) ← words grammar ((← get).rest.length + 2)
      if !token.isNewline && !token.isOperator .semicolon then unexpected token none
      else pure found
    else do
      if !next.isOperator .semicolon then putBack next
      pure [[.param ['@'] .plain true]]
  let start ← tokenPastLines grammar
  if !start.isKeyword "do" then unexpected start (some (.keyword "do"))
  else return .forEach line name words (← grammar.list)

/-- The pattern that a token is: a word, even if it is a keyword elsewhere. -/
def patternWord : Token → Word
  | .word word _ => word
  | .keyword name => [.text name.toList false]
  | _ => []

/-- Reads the patterns of a case from the first one on. `fuel` bounds their number. -/
def patterns (grammar : Grammar) : Nat → Token → Parse (List Word)
  | 0, _ => return []
  | fuel + 1, first => do
      let word := patternWord first
      let next ← rawToken grammar
      if next.isOperator .pipe then
        return word :: (← patterns grammar fuel (← rawToken grammar))
      else if next.isOperator .closing then return [word]
      else unexpected next (some (.operator .closing))

/-- Reads the cases of a choice. `fuel` bounds their number. -/
def cases (grammar : Grammar) : Nat → Parse (List (List Word × Command))
  | 0 => return []
  | fuel + 1 => do
      let first ← tokenPastLines grammar
      if first.isKeyword "esac" then return []
      else
        let first ← if first.isOperator .opening then rawToken grammar else pure first
        let found ← patterns grammar ((← get).rest.length + 2) first
        let body ← grammar.list
        let next ← tokenPastLines grammar
        if next.isKeyword "esac" then return [(found, body)]
        else if next.isOperator .endCase then return (found, body) :: (← cases grammar fuel)
        else unexpected next (some (.operator .endCase))

/-- Reads a choice by patterns behind its first keyword. -/
def caseChoice (grammar : Grammar) (line : Nat) : Parse Command := do
  match ← rawToken grammar with
  | .word word _ =>
      let next ← tokenPastLines grammar
      if !next.isKeyword "in" then unexpected next (some (.keyword "in"))
      else return .select line word (← cases grammar ((← get).rest.length + 2))
  | token => unexpected token (some (.word [] false))

/-- The end that a compound command needs. -/
def expectEnd (grammar : Grammar) (ending : Token) : Parse Unit := do
  let found ← rawToken grammar
  let isEnd :=
    match ending with
    | .keyword name => found.isKeyword name
    | .operator op => found.isOperator op
    | _ => false
  if isEnd then pure () else unexpected found (some ending)

/-- A list that cannot be empty. -/
def nonEmptyList (grammar : Grammar) : Parse Command := do
  let first ← tokenPastLines grammar
  putBack first
  match first with
  | .endOfFile => grammar.list
  | first => if first.endsList then unexpected first none else grammar.list

/-- Puts redirections on a command. Right behind the command there can be a keyword. -/
def withRedirects (grammar : Grammar) (line : Nat) (command : Command) : Parse Command := do
  let first ← token grammar
  let found ← redirects grammar ((← get).rest.length + 2) first
  match command, found with
  | command, [] => return command
  | .subshell line body _, found => return .subshell line body found
  | command, found => return .redirected line command found

/-- Reads a command. `fuel` bounds the functions that are defined inside of each other. -/
def command (grammar : Grammar) : Nat → Parse Command
  | 0 => return .nothing
  | fuel + 1 => do
      let lists : Grammar := { grammar with list := nonEmptyList grammar }
      let first ← token grammar
      let line := (← get).line
      let size := (← get).rest.length + 2
      match first with
      | .keyword "if" =>
          let found ← branches lists size
          expectEnd grammar (.keyword "fi")
          withRedirects grammar line found
      | .keyword "while" | .keyword "until" =>
          let test ← lists.list
          expectKeyword grammar "do"
          let body ← lists.list
          expectEnd grammar (.keyword "done")
          withRedirects grammar line (.loop (first.isKeyword "until") test body)
      | .keyword "for" =>
          let found ← forLoop lists line
          expectEnd grammar (.keyword "done")
          withRedirects grammar line found
      | .keyword "case" => withRedirects grammar line (← caseChoice grammar line)
      | .keyword "\x7b" =>
          let body ← lists.list
          expectEnd grammar (.keyword "\x7d")
          withRedirects grammar line body
      | .operator .opening =>
          let body ← lists.list
          expectEnd grammar (.operator .closing)
          withRedirects grammar line (.subshell line body [])
      | .word .. | .redirect .. =>
          putBack first
          simple grammar (command grammar fuel) line size ⟨[], [], []⟩
      | token => unexpected token none

/-- Reads a command where one may start on a later line. -/
def commandPastLines (grammar : Grammar) : Parse Command := do
  let first ← tokenPastLines grammar
  putBack first
  command grammar ((← get).rest.length + 2)

/-- Reads the commands of a pipe behind the first one. `fuel` bounds their number. -/
def pipeRest (grammar : Grammar) : Nat → Parse (List Command)
  | 0 => return []
  | fuel + 1 => do
      let next ← rawToken grammar
      if next.isOperator .pipe then
        let command ← commandPastLines grammar
        return command :: (← pipeRest grammar fuel)
      else
        putBack next
        return []

/-- Reads a pipe, the status of which may be negated. -/
def pipeline (grammar : Grammar) : Parse Command := do
  let first ← token grammar
  let negates := first.isKeyword "!"
  if !negates then putBack first
  let command ← command grammar ((← get).rest.length + 2)
  let found ←
    match ← pipeRest grammar ((← get).rest.length + 2) with
    | [] => pure command
    | more => pure (.pipe (command :: more))
  return if negates then .negate found else found

/-- Reads pipes that depend on the status of the ones before. `fuel` bounds their number. -/
def andOrRest (grammar : Grammar) : Nat → Command → Parse Command
  | 0, found => return found
  | fuel + 1, found => do
      let next ← rawToken grammar
      if next.isOperator .andThen || next.isOperator .orElse then
        let first ← tokenPastLines grammar
        putBack first
        let more ← pipeline grammar
        andOrRest grammar fuel
          (if next.isOperator .andThen then .andThen found more else .orElse found more)
      else
        putBack next
        return found

def andOr (grammar : Grammar) : Parse Command := do
  andOrRest grammar ((← get).rest.length + 2) (← pipeline grammar)

/-- One command after another. -/
def sequence (found : Option Command) (next : Command) : Command :=
  match found with
  | none => next
  | some found => .sequence found next

/-- Reads the commands of a list up to a token that ends it. `fuel` bounds their number. -/
def listFrom (grammar : Grammar) : Nat → Option Command → Parse Command
  | 0, found => return found.getD .nothing
  | fuel + 1, found => do
      let first ← tokenPastLines grammar
      putBack first
      if first.endsList then
        match first with
        | .endOfFile => readDocuments grammar
        | _ => pure ()
        return found.getD .nothing
      else
        let one ← andOr grammar
        let next ← rawToken grammar
        let one := if next.isOperator .background then .background one else one
        let found := sequence found one
        if next.isOperator .background || next.isOperator .semicolon then
          listFrom grammar fuel (some found)
        else
          putBack next
          match next with
          | .newline | .endOfFile => listFrom grammar fuel (some found)
          | _ => return found

/-- Reads the commands of a line. There is none at the end of the script. `fuel` bounds
their number. -/
def lineFrom (grammar : Grammar) : Nat → Option Command → Parse (Option Command)
  | 0, found => return found
  | fuel + 1, found => do
      match ← token grammar with
      | .newline =>
          readDocuments grammar
          return some (found.getD .nothing)
      | .endOfFile =>
          readDocuments grammar
          putBack .endOfFile
          return found
      | first =>
          putBack first
          let one ← andOr grammar
          let next ← rawToken grammar
          let one := if next.isOperator .background then .background one else one
          let found := sequence found one
          match next with
          | .operator .background | .operator .semicolon => lineFrom grammar fuel (some found)
          | .newline | .endOfFile =>
              putBack next
              lineFrom grammar fuel (some found)
          | next => unexpected next none

/-- The grammar in which parts nest to a depth. -/
def grammar : Nat → Grammar
  | 0 => ⟨fun _ => fail "Too deep", fail "Too deep", fail "Too deep"⟩
  | depth + 1 =>
      { pieces := fun enclosure => piecesOf (grammar depth) enclosure
        list := do
          let inner := grammar depth
          listFrom inner ((← get).rest.length + 2) none
        enclosed := do
          let inner := grammar depth
          let found ← listFrom inner ((← get).rest.length + 2) none
          expectEnd inner (.operator .closing)
          return found }

/-- Reads the commands of the next line. -/
def line? : Parse (Option Command) := do
  let size := (← get).rest.length + 2
  lineFrom (grammar size) size none

end Parse

namespace Reader

/-- Before a script. -/
def start (script : Octets) (nextDocument : Nat) : Reader :=
  ⟨script, 1, none, [], [], nextDocument⟩

end Reader

end ThemedSvg.Shell
