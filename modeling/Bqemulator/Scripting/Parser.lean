import Bqemulator.Lib.Consume
import Bqemulator.Lib.Text

/-!
# The script parser

The recursive-descent parser of scripts, over the tokens of the lexer. A text that the parser keeps
is a span of tokens: in the source it is what stands between the first and the last of them.
-/

namespace Bqemulator

/-! ## Tokens -/

inductive TokenKind where
  | keyword
  | ident
  | string
  | number
  | punct
  | op
  | at_
deriving DecidableEq

/-- A token of the lexer. -/
structure Token where
  kind : TokenKind
  value : String
deriving DecidableEq

abbrev Span := List Token

def kw (value : String) : Token := ⟨.keyword, value⟩

def pct (value : String) : Token := ⟨.punct, value⟩

variable (t : Token)

def Token.isKeyword (kws : List String) : Bool := t.kind = .keyword && t.value ∈ kws

/-- Whether a token is a word, whatever its case, that the lexer may or may not know. -/
def Token.isWord (words : List String) : Bool :=
  (t.kind = .keyword || t.kind = .ident) && Text.upper t.value ∈ words

def describeKind : Option Token → String
  | none => "EOF"
  | some t => match t.kind with
    | .keyword => "KEYWORD"
    | .ident => "IDENT"
    | .string => "STRING"
    | .number => "NUMBER"
    | .punct => "PUNCT"
    | .op => "OP"
    | .at_ => "AT"

def describe (t : Option Token) : String :=
  describeKind t ++ ":" ++ Text.quoted ((t.map Token.value).getD "")

/-! ## Statements -/

structure RoutineArg where
  mode : String
  name : String
  type : Span

/-- A statement with its spans. -/
inductive Parsed where
  | declare (names : List String) (typeName : Span) (default : Option Span)
  | set (targets : List String) (source : Span)
  | ifThen (branches : List (Span × List Parsed)) (elseBody : Option (List Parsed))
  | whileDo (condition : Span) (body : List Parsed)
  | loop (body : List Parsed)
  | forIn (loopVar : String) (source : Span) (body : List Parsed)
  | break_
  | continue_
  | begin_ (body : List Parsed) (handler : Option (List Parsed))
  | call (routine : List String) (args : List Span)
  | executeImmediate (sql : Span) (into : List String) (usingExprs : List Span)
  | return_ (value : Option Span)
  | raise (message : Option Span)
  | createFunction (name : List String) (args : List RoutineArg) (returns : Option Span)
      (language : String) (body : Span) (orReplace tableFn : Bool)
  | createProcedure (name : List String) (args : List RoutineArg) (body : Span) (orReplace : Bool)
  | sql (text : Span)

/-! ## Scans -/

/-- The length of an expression: it ends at a token that stops it, outside of parentheses. -/
def captureLength (stop : Token → Bool) : Nat → List Token → Nat
  | _, [] => 0
  | depth, t :: ts =>
    if t = pct "(" then captureLength stop (depth + 1) ts + 1
    else if t = pct ")" then
      if depth = 0 then 0 else captureLength stop (depth - 1) ts + 1
    else if depth = 0 && stop t then 0
    else captureLength stop depth ts + 1

/-- The length of a statement of SQL: it ends before a semicolon outside of parentheses. -/
def sqlLength : Int → List Token → Nat
  | _, [] => 0
  | depth, t :: ts =>
    if t = pct "(" then sqlLength (depth + 1) ts + 1
    else if t = pct ")" then sqlLength (depth - 1) ts + 1
    else if t = pct ";" && depth = 0 then 0
    else sqlLength depth ts + 1

/-- The length of what stands before the token that closes the last of some open brackets. -/
def balancedLength (opening closing : Token) : Nat → List Token → Option Nat
  | _, [] => none
  | depth, t :: ts =>
    if t = opening then (balancedLength opening closing (depth + 1) ts).map (· + 1)
    else if t = closing then
      if depth = 1 then some 0 else (balancedLength opening closing (depth - 1) ts).map (· + 1)
    else (balancedLength opening closing depth ts).map (· + 1)

def Token.isTypeClose : Bool :=
  t.kind = .op && t.value ≠ "" && t.value.toList.all (· = '>')

def typeTail : Nat → List Token → Except String Nat
  | _, [] => .ok 0
  | depth, t :: ts =>
    if t = ⟨.op, "<"⟩ then (typeTail (depth + 1) ts).map (· + 1)
    else if t.isTypeClose then
      if depth = 0 then .ok 0
      else if t.value.length > depth then .error
        ("Type annotation has more closing brackets than openings: " ++ Text.quoted t.value)
      else (typeTail (depth - t.value.length) ts).map (· + 1)
    else if depth > 0 then (typeTail depth ts).map (· + 1)
    else .ok 0

def precisionLength : List Token → Nat
  | [] => 0
  | t :: ts =>
    if t = pct "(" then ((balancedLength (pct "(") (pct ")") 1 ts).map (· + 2)).getD (ts.length + 1)
    else 0

/-- The arguments of a call, up to the parenthesis that ends them. An empty argument is dropped only
at the end. -/
def argItems : Nat → Span → List Token → Option (List Span × Nat)
  | _, _, [] => none
  | depth, item, t :: ts =>
    if t = pct "(" then (argItems (depth + 1) (item ++ [t]) ts).map fun x => (x.1, x.2 + 1)
    else if t = pct ")" then
      if depth = 1 then some (if item = [] then [] else [item], 0)
      else (argItems (depth - 1) (item ++ [t]) ts).map fun x => (x.1, x.2 + 1)
    else if t = pct "," && depth = 1 then
      (argItems depth [] ts).map fun x => (item :: x.1, x.2 + 1)
    else (argItems depth (item ++ [t]) ts).map fun x => (x.1, x.2 + 1)

/-! ## Steps of the parser -/

abbrev LeafParser := Consumer Token String

abbrev BlockParser := Consumer Token (Option String)

open Consumer

def advance : LeafParser (Option Token) := scan fun ts => .ok (ts.head?, 1)

variable (p : Token → Bool)

def currentIs : LeafParser Bool := scan fun ts => .ok (ts.head?.any p, 0)

def accept : LeafParser Bool := scan fun ts =>
  .ok (ts.head?.any p, if ts.head?.any p then 1 else 0)

def expect (error : Option Token → String) : LeafParser Token := scan fun ts =>
  match ts.head? with
  | some t => if p t then .ok (t, 1) else .error (error (some t))
  | none => .error (error none)

def expectKeyword (kw : String) : LeafParser Token :=
  expect (fun t => t.isKeyword [kw]) fun t =>
    "Expected keyword " ++ Text.quoted kw ++ ", got " ++ describe t

def expectPunct (mark : String) : LeafParser Token :=
  expect (· = pct mark) fun t => "Expected " ++ Text.quoted mark ++ ", got " ++ describe t

def consumeOptionalSemicolon : LeafParser Bool := accept (· = pct ";")

def readIdentifierValue : LeafParser String := do
  return (← expect (fun t => t.kind = .ident) fun t =>
    "Expected identifier, got " ++ describe t).value

def readNames : LeafParser (List String) := sepBy readIdentifierValue (· = pct ",")

def readDottedName : LeafParser (List String) := sepBy readIdentifierValue (· = pct ".")

def readStringLiteral : LeafParser Token :=
  expect (fun t => t.kind = .string) fun t => "Expected string literal, got " ++ describe t

/-- An expression, up to a keyword outside of parentheses. -/
def captureExprUntil (stop : Token → Bool) : LeafParser Span := scan fun ts =>
  .ok (ts.take (captureLength stop 0 ts), captureLength stop 0 ts)

def isSemicolon : Bool := t = pct ";"

def captureCommaListUntil (stop : Token → Bool) : LeafParser (List Span) := do
  let items ← sepBy (captureExprUntil fun t => stop t || t = pct ",") (· = pct ",")
  return items.filter (· ≠ [])

def captureArgList : LeafParser (List Span) := scan fun ts =>
  match argItems 1 [] ts with
  | none => .error "Unterminated argument list"
  | some x => .ok x

/-- The name of a type. -/
def readTypeName : LeafParser Span := scan fun ts => do
  let n ← match ts with
    | [] => pure 0
    | t :: rest =>
      if t.kind = .ident || t.kind = .keyword then
        let m := precisionLength rest
        (typeTail 0 (rest.drop m)).map (· + m + 1)
      else typeTail 0 ts
  if n = 0 then .error ("Expected type name, got " ++ describeKind ts.head?)
  else return (ts.take n, n)

def readBareStatementBody : LeafParser Span :=
  scan fun ts => .ok (ts.take (sqlLength 0 ts), sqlLength 0 ts)

def readParenthesisedBody : LeafParser Span := scan fun ts =>
  match balancedLength (pct "(") (pct ")") 1 ts.tail with
  | none => .error "Unterminated AS (...) body"
  | some n => .ok (ts.tail.take n, n + 2)

/-- The body of a procedure: up to the `END` that closes its `BEGIN`, by the two keywords alone. -/
def captureBalancedBlock : LeafParser Span := scan fun ts =>
  match balancedLength (kw "BEGIN") (kw "END") 1 ts with
  | none => .error "Unterminated BEGIN ... END block"
  | some n => .ok (ts.take n, n + 1)

def parseSqlStatement : LeafParser Parsed := scan fun ts =>
  .ok (.sql (ts.take (sqlLength 0 ts)), sqlLength 0 ts + 1)

/-! ## Statements without statements inside -/

def parseDeclare : LeafParser Parsed := do
  let _ ← expectKeyword "DECLARE"
  let names ← readNames
  let typeName ← readTypeName
  let default ← if ← accept (·.isKeyword ["DEFAULT"]) then some <$> captureExprUntil isSemicolon
    else pure none
  let _ ← consumeOptionalSemicolon
  return .declare names typeName default

def parseSet : LeafParser Parsed := do
  let _ ← expectKeyword "SET"
  let targets ← if ← accept (· = pct "(") then do
      let names ← readNames
      let _ ← expectPunct ")"
      pure names
    else List.singleton <$> readIdentifierValue
  let _ ← expect (· = ⟨.op, "="⟩) fun _ => "SET requires " ++ Text.quoted "=" ++ " after target(s)"
  let source ← captureExprUntil isSemicolon
  let _ ← consumeOptionalSemicolon
  return .set targets source

def parseCall : LeafParser Parsed := do
  let _ ← expectKeyword "CALL"
  let routine ← readDottedName
  let _ ← expectPunct "("
  let args ← captureArgList
  let _ ← expectPunct ")"
  let _ ← consumeOptionalSemicolon
  return .call routine args

def parseExecuteImmediate : LeafParser Parsed := do
  let _ ← expectKeyword "EXECUTE"
  let _ ← expectKeyword "IMMEDIATE"
  let sql ← captureExprUntil fun t => isSemicolon t || t.isKeyword ["INTO", "USING"]
  let into ← if ← accept (·.isKeyword ["INTO"]) then readNames else pure []
  let usingExprs ← if ← accept (·.isKeyword ["USING"]) then captureCommaListUntil isSemicolon
    else pure []
  let _ ← consumeOptionalSemicolon
  return .executeImmediate sql into usingExprs

def parseReturn : LeafParser Parsed := do
  let _ ← expectKeyword "RETURN"
  if ← consumeOptionalSemicolon then return .return_ none
  else
    let value ← captureExprUntil isSemicolon
    let _ ← consumeOptionalSemicolon
    return .return_ (some value)

def parseRaise : LeafParser Parsed := do
  let _ ← expectKeyword "RAISE"
  let message ← if ← accept (·.isKeyword ["USING"]) then do
      let _ ← expect (fun t => t.kind = .ident && Text.upper t.value = "MESSAGE") fun _ =>
        "RAISE USING requires MESSAGE = <expr>"
      let _ ← expect (· = ⟨.op, "="⟩) fun _ => "RAISE USING MESSAGE requires " ++ Text.quoted "="
      some <$> captureExprUntil isSemicolon
    else pure none
  let _ ← consumeOptionalSemicolon
  return .raise message

def parseSignal (stmt : Parsed) : LeafParser Parsed := do
  let _ ← advance
  let _ ← consumeOptionalSemicolon
  return stmt

/-! ## Routines -/

section Routines

-- the check of a type in the argument list of a routine
variable (parseBqTypeString : Span → Except String Unit)

def readCheckedType : LeafParser Span := do
  let type ← readTypeName
  match parseBqTypeString type with
  | .error e => fail e
  | .ok () => pure type

def parseRoutineArg : LeafParser RoutineArg := do
  let mode ← scan fun ts => match ts.head? with
    | some t =>
      if t.isWord ["IN", "OUT", "INOUT"] then .ok (Text.upper t.value, 1) else .ok ("IN", 0)
    | none => .ok ("IN", 0)
  let name ← readIdentifierValue
  return { mode, name, type := ← readCheckedType parseBqTypeString }

def parseRoutineArgList : LeafParser (List RoutineArg) := do
  let _ ← expectPunct "("
  if ← accept (· = pct ")") then return []
  else
    let args ← sepBy (parseRoutineArg parseBqTypeString) (· = pct ",")
    let _ ← expectPunct ")"
    return args

def parseFunctionBody (tableFn : Bool) : LeafParser (String × Span) := do
  if ← accept (·.isKeyword ["LANGUAGE"]) then
    let language := Text.upper (((← advance).map Token.value).getD "")
    let _ ← expectKeyword "AS"
    let body ← readStringLiteral
    return (if language = "JS" then "JAVASCRIPT" else language, [body])
  else if ← accept (·.isKeyword ["AS"]) then
    if ← currentIs (· = pct "(") then return ("SQL", ← readParenthesisedBody)
    else if tableFn then return ("SQL", ← readBareStatementBody)
    else fail ("Expected " ++ Text.quoted "(" ++ " after AS")
  else fail "CREATE FUNCTION requires AS or LANGUAGE ... AS"

def parseFunctionRest (orReplace tableFn : Bool) : LeafParser Parsed := do
  let name ← readDottedName
  let args ← parseRoutineArgList parseBqTypeString
  let returns ← if ← accept (·.isKeyword ["RETURNS"]) then
      some <$> readCheckedType parseBqTypeString
    else pure none
  let (language, body) ← parseFunctionBody tableFn
  let _ ← consumeOptionalSemicolon
  return .createFunction name args returns language body orReplace tableFn

def parseProcedureRest (orReplace : Bool) : LeafParser Parsed := do
  let name ← readDottedName
  let args ← parseRoutineArgList parseBqTypeString
  let _ ← expectKeyword "BEGIN"
  let body ← captureBalancedBlock
  let _ ← consumeOptionalSemicolon
  return .createProcedure name args body orReplace

def isCreateRoutine : Nat → List Token → Bool
  | 0, _ | _, [] => false
  | left + 1, t :: ts =>
    if t.isKeyword ["FUNCTION", "PROCEDURE"] then true
    else if t.isKeyword ["OR", "REPLACE", "TEMP", "TEMPORARY", "TABLE"] ||
        t.kind = .ident && Text.upper t.value ∈ ["TEMP", "TEMPORARY"] then isCreateRoutine left ts
    else false

def parseCreateRoutine : LeafParser Parsed := do
  let _ ← expectKeyword "CREATE"
  let orReplace ← accept (·.isKeyword ["OR"])
  if orReplace then let _ ← expectKeyword "REPLACE"
  let isTemp ← accept (·.isKeyword ["TEMP", "TEMPORARY"])
  let tableFn ← accept (·.isKeyword ["TABLE"])
  if ← accept (·.isKeyword ["FUNCTION"]) then parseFunctionRest parseBqTypeString orReplace tableFn
  else if ← accept (·.isKeyword ["PROCEDURE"]) then parseProcedureRest parseBqTypeString orReplace
  else fail ("CREATE " ++ (if isTemp then "TEMP " else "") ++ "... expected FUNCTION or PROCEDURE")

/-! ## Statements with statements inside -/

section Blocks

-- the parser of statements up to some keywords
variable (statements : List String → BlockParser (List Parsed))

def parseBranch : BlockParser (Span × List Parsed) := do
  let condition ← lift (captureExprUntil (·.isKeyword ["THEN"]))
  let _ ← lift (expectKeyword "THEN")
  return (condition, ← statements ["ELSEIF", "ELSIF", "ELSE", "END"])

def closeBlock (opener : String) : LeafParser Unit := do
  let _ ← expectKeyword "END"
  let _ ← expectKeyword opener
  let _ ← consumeOptionalSemicolon

def parseBody (opener : String) : BlockParser (List Parsed) := do
  let body ← statements ["END"]
  lift (closeBlock opener)
  return body

def parseIf : BlockParser Parsed := do
  let _ ← lift (expectKeyword "IF")
  let branches ← sepBy (parseBranch statements) (·.isKeyword ["ELSEIF", "ELSIF"])
  if ← lift (accept (·.isKeyword ["ELSE"])) then
    return .ifThen branches (some (← parseBody statements "IF"))
  else
    lift (closeBlock "IF")
    return .ifThen branches none

def parseWhile : BlockParser Parsed := do
  let _ ← lift (expectKeyword "WHILE")
  let condition ← lift (captureExprUntil (·.isKeyword ["DO"]))
  let _ ← lift (expectKeyword "DO")
  return .whileDo condition (← parseBody statements "WHILE")

def parseLoop : BlockParser Parsed := do
  let _ ← lift (expectKeyword "LOOP")
  return .loop (← parseBody statements "LOOP")

def parseFor : BlockParser Parsed := do
  let _ ← lift (expectKeyword "FOR")
  let loopVar ← lift readIdentifierValue
  let _ ← lift (expectKeyword "IN")
  let source ← lift (captureExprUntil (·.isKeyword ["DO"]))
  let _ ← lift (expectKeyword "DO")
  return .forIn loopVar source (← parseBody statements "FOR")

def handlerHead : LeafParser Unit := do
  let _ ← expectKeyword "WHEN"
  let _ ← expect (fun t => t.kind = .ident && Text.upper t.value = "ERROR") fun _ =>
    "Only " ++ Text.quoted "EXCEPTION WHEN ERROR THEN" ++ " is supported"
  let _ ← expectKeyword "THEN"

def parseHandler : BlockParser (Option (List Parsed)) := do
  if ← lift (accept (·.isKeyword ["EXCEPTION"])) then
    lift handlerHead
    return some (← statements ["END"])
  else return none

def parseBegin : BlockParser Parsed := do
  let _ ← lift (expectKeyword "BEGIN")
  let body ← statements ["EXCEPTION", "END"]
  let handler ← parseHandler statements
  let _ ← lift (expectKeyword "END")
  let _ ← lift consumeOptionalSemicolon
  return .begin_ body handler

/-- The parser of a statement that begins with a keyword, by the keyword and the tokens. -/
def handler (keyword : String) (ts : List Token) : BlockParser Parsed :=
  match keyword with
  | "DECLARE" => lift parseDeclare
  | "SET" => lift parseSet
  | "IF" => parseIf statements
  | "WHILE" => parseWhile statements
  | "LOOP" => parseLoop statements
  | "FOR" => parseFor statements
  | "BREAK" | "LEAVE" => lift (parseSignal .break_)
  | "CONTINUE" | "ITERATE" => lift (parseSignal .continue_)
  | "BEGIN" =>
    if ts.tail.head?.any (·.isWord ["TRANSACTION"]) then lift parseSqlStatement
    else parseBegin statements
  | "CALL" => lift parseCall
  | "EXECUTE" => lift parseExecuteImmediate
  | "RETURN" => lift parseReturn
  | "RAISE" => lift parseRaise
  | "CREATE" =>
    lift (if isCreateRoutine 5 ts.tail then parseCreateRoutine parseBqTypeString
      else parseSqlStatement)
  | _ => lift parseSqlStatement

/-- A statement, or nothing for a semicolon. -/
def parseStatement : BlockParser (Option Parsed) := choose fun ts =>
  match ts.head? with
  | none => do return some (← lift parseSqlStatement)
  | some t =>
    if t = pct ";" then do
      let _ ← lift advance
      return none
    else if t.kind = .keyword then do
      return some (← handler parseBqTypeString statements t.value ts)
    else do return some (← lift parseSqlStatement)

end Blocks

/-- Statements, up to the end of the input or one of some keywords. -/
def parseStatements : Nat → List String → BlockParser (List Parsed)
  | 0, _ => fail none
  | fuel + 1, stop => choose fun ts =>
    match ts.head? with
    | none => pure []
    | some t =>
      if t.isKeyword stop then pure []
      else do
        let stmt ← parseStatement parseBqTypeString (parseStatements fuel)
        return stmt.toList ++ (← parseStatements fuel stop)

/-- A script, with fuel for its tokens. -/
def parseScript (ts : List Token) : Except (Option String) (List Parsed) :=
  ((parseStatements parseBqTypeString (ts.length + 1) []).run ts).map Prod.fst

end Routines

end Bqemulator
