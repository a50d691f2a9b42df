import TraceSynth.Program.Token
import TraceSynth.Program.Stmt
import TraceSynth.Decimal.Read

/-!
# Reading program text

A recursive-descent reader for the text `Program.toText` writes. A program is a list of
statements:

* `var x`, `var x = rhs`, `lhs = rhs` with a variable or field on the left;
* `return e`, `throw e`, `delete o.f`, `break`;
* `if (c) { … }` with an optional `else { … }`, an absent one being an empty block;
* `for (var i = a; i < b; i += c) { … }`;
* `Object.defineProperty(o, n, {value: v})`.

A right-hand side may be a call `f.apply(recv, [args])` (or `global` for no receiver); a call
needs a variable to store its result and may stand nowhere else.

Expressions are `==` over `+` (and `-` of a number literal) over the prefix operators `!` and
`-` (the latter of a number literal only) over postfix chains: `.name` field reads, which may
continue on a later line, and `[e]` reads, which must start on the line of the token before.
`argN`, with `N` written canonically, is the argument slot `N`.

Each function carries fuel. Along any chain of nested calls the position advances at least
every seven calls, so eight calls per token never run out.
-/

namespace TraceSynth

namespace Program

/-- A call read in value position: `target.apply(receiver, [args])`. -/
structure CallForm where
  target : Expr
  receiver : Option Expr
  args : List Expr
  deriving Inhabited

/-- What a postfix chain reads: an expression, or a call ending the chain. -/
inductive Chain where
  | value (e : Expr)
  | call (c : CallForm)
  deriving Inhabited

/-- The reader's monad: the tokens, the index of the next token, and the first problem. -/
abbrev ParseM := ReaderT (Array Token) (StateT Nat (Except SyntaxError))

namespace Parsing

/-- The next token; the end token stays next once reached. -/
def peek : ParseM Token := do
  let toks ← read
  let pos ← get
  pure (toks.getD pos default)

/-- The line of the token read last. -/
def prevLine : ParseM Nat := do
  let toks ← read
  let pos ← get
  pure (toks.getD (pos - 1) default).line

/-- Whether the next token has this kind. -/
def atKind (k : TokenKind) : ParseM Bool := do
  pure ((← peek).kind == k)

/-- Whether the next token is this identifier. -/
def atIdent (name : String) : ParseM Bool := do
  let t ← peek
  pure (t.kind == .ident && t.text == name)

/-- Read the next token; the end token is never passed. -/
def next : ParseM Token := do
  let t ← peek
  if t.kind != .eof then modify (· + 1)
  pure t

/-- Fail with a message, at the line of the next token. -/
def reject (msg : String) : ParseM α := do
  throw { line := (← peek).line, msg }

/-- A token text as a quoted literal. -/
def quoteText (s : String) : String := Quoted.quote (Bytes.ofString s)

/-- Read a token of this kind. -/
def expect (k : TokenKind) : ParseM Unit := do
  let t ← peek
  if t.kind == k then discard next
  else reject ("expected " ++ k.describe ++ ", found " ++ quoteText t.text)

/-- Read this identifier. -/
def expectIdent (name : String) : ParseM Unit := do
  let t ← peek
  if t.kind == .ident && t.text == name then discard next
  else reject ("expected " ++ quoteText name ++ ", found " ++ quoteText t.text)

/-- Read an identifier. -/
def ident : ParseM String := do
  let t ← peek
  if t.kind == .ident then
    discard next
    pure t.text
  else reject ("expected identifier, found " ++ quoteText t.text)

/-- The failure when the fuel is gone, which a fuel of eight per token never reaches. -/
def exhausted : ParseM α := reject "program nested too deeply"

/-- The slot of an `argN` name: `N` canonical decimal digits (no sign, no leading zero) below
`2^63`. -/
def argNumber? (name : String) : Option Nat :=
  match name.toList with
  | 'a' :: 'r' :: 'g' :: rest =>
    if rest.isEmpty || !rest.all isDecimalChar then none
    else if rest.head? == some '0' && rest.length > 1 then none
    else
      let n := rest.foldl (fun acc c => acc * 10 + (c.toNat - '0'.toNat)) 0
      if n < 2 ^ (63 : Nat) then some n else none
  | _ => none

/-- The number constant of an expression that is one. -/
def numberConst? : Expr → Option Float
  | .const (.number n) => some n
  | _ => none

mutual

/-- An expression: `==` over additive expressions, to the left. -/
def expr : Nat → ParseM Expr
  | 0 => exhausted
  | fuel + 1 => do
    let a ← additive fuel
    equalityTail fuel a

/-- The `== b` parts after a first operand. -/
def equalityTail : Nat → Expr → ParseM Expr
  | 0, _ => exhausted
  | fuel + 1, a => do
    if (← atKind .eqEq) then
      discard next
      let b ← additive fuel
      equalityTail fuel (.binary .eq a b)
    else pure a

/-- An additive expression: `+` and `-` over prefix expressions, to the left. -/
def additive : Nat → ParseM Expr
  | 0 => exhausted
  | fuel + 1 => do
    let a ← unary fuel
    additiveTail fuel a

/-- The `+ b` and `- n` parts after a first operand; `- n` adds the negated number. -/
def additiveTail : Nat → Expr → ParseM Expr
  | 0, _ => exhausted
  | fuel + 1, a => do
    let t ← peek
    if t.kind == .char '+' || t.kind == .char '-' then
      discard next
      let b ← unary fuel
      if t.kind == .char '-' then
        match numberConst? b with
        | some n => additiveTail fuel (.binary .add a (.const (.number (-n))))
        | none => reject "subtraction is only supported for numeric literals"
      else additiveTail fuel (.binary .add a b)
    else pure a

/-- A prefix expression: `!`, `-` before a number literal, or a postfix chain that is no call. -/
def unary : Nat → ParseM Expr
  | 0 => exhausted
  | fuel + 1 => do
    let t ← peek
    if t.kind == .char '!' then
      discard next
      let e ← unary fuel
      pure (.not e)
    else if t.kind == .char '-' then
      discard next
      let e ← unary fuel
      match numberConst? e with
      | some n => pure (.const (.number (-n)))
      | none => reject "negation is only supported for numeric literals"
    else
      match ← chain fuel with
      | .value e => pure e
      | .call _ => reject "call is not allowed inside an expression"

/-- A primary expression and its field reads, or a call. -/
def chain : Nat → ParseM Chain
  | 0 => exhausted
  | fuel + 1 => do
    let e ← primary fuel
    chainTail fuel e

/-- The field reads after `e`; `.apply(` starts a call, which ends the chain. -/
def chainTail : Nat → Expr → ParseM Chain
  | 0, _ => exhausted
  | fuel + 1, e => do
    let line ← prevLine
    let t ← peek
    if t.kind == .char '.' then
      discard next
      let name ← ident
      if name == "apply" && (← atKind (.char '(')) then
        pure (.call (← callArgs fuel e))
      else chainTail fuel (.field e (.const (.str name)))
    else if t.kind == .char '[' && t.line == line then
      discard next
      let name ← expr fuel
      expect (.char ']')
      chainTail fuel (.field e name)
    else pure (.value e)

/-- The parenthesized part of a call, from its `(`. -/
def callArgs : Nat → Expr → ParseM CallForm
  | 0, _ => exhausted
  | fuel + 1, target => do
    discard next
    let receiver ← if (← atIdent "global") then do
        discard next
        pure none
      else some <$> expr fuel
    expect (.char ',')
    expect (.char '[')
    let args ← argList fuel []
    discard next
    expect (.char ')')
    pure { target, receiver, args }

/-- Comma-separated arguments up to `]`, which is left next. -/
def argList : Nat → List Expr → ParseM (List Expr)
  | 0, _ => exhausted
  | fuel + 1, acc => do
    if (← atKind (.char ']')) then pure acc.reverse
    else
      if !acc.isEmpty then expect (.char ',')
      let a ← expr fuel
      argList fuel (a :: acc)

/-- A literal, a parenthesized expression, an empty object or array, or a name. -/
def primary : Nat → ParseM Expr
  | 0 => exhausted
  | fuel + 1 => do
    let t ← peek
    match t.kind with
    | .int | .float =>
      discard next
      match Reading.float (Bytes.ofString t.text).toList with
      | .ok f => pure (.const (.number f))
      | .error _ => reject ("invalid number " ++ quoteText t.text)
    | .string =>
      discard next
      match Quoted.unquote (Bytes.ofString t.text) with
      | some s => pure (.const (.string s))
      | none => reject ("invalid string " ++ t.text)
    | .char '(' =>
      discard next
      let e ← expr fuel
      expect (.char ')')
      pure e
    | .char '\x7b' =>
      discard next
      expect (.char '\x7d')
      pure (.alloc false)
    | .char '[' =>
      discard next
      expect (.char ']')
      pure (.alloc true)
    | .ident =>
      discard next
      identExpr fuel t.text
    | _ => reject ("unexpected " ++ quoteText t.text)

/-- The expression a name stands for: a literal word, an argument slot, or a variable. -/
def identExpr : Nat → String → ParseM Expr
  | 0, _ => exhausted
  | fuel + 1, name =>
    match name with
    | "true" => pure (.const (.bool true))
    | "false" => pure (.const (.bool false))
    | "null" => pure (.const .null)
    | "undefined" => pure (.const .undefined)
    | "NaN" => pure (.const (.number (0.0 / 0.0)))
    | "Infinity" => pure (.const (.number (1.0 / 0.0)))
    | "arguments" => do
      expect (.char '[')
      let idx ← expr fuel
      expect (.char ']')
      pure (.argument idx)
    | _ =>
      match argNumber? name with
      | some i => pure (Expr.arg i)
      | none => pure (.var name)

/-- A right-hand side: a call if the postfix chain reads one, else an expression read again
from the same place. -/
def exprOrCall : Nat → ParseM Chain
  | 0 => exhausted
  | fuel + 1 => do
    let start ← get
    let attempt ← tryCatch
      (do
        match ← chain fuel with
        | .call c => pure (some c)
        | .value _ => pure none)
      (fun _ => pure none)
    match attempt with
    | some c => pure (.call c)
    | none =>
      set start
      pure (.value (← expr fuel))

/-- The right-hand side of an assignment to `lhs`; a call result needs a variable. -/
def assignment : Nat → Expr → Bool → ParseM Stmt
  | 0, _, _ => exhausted
  | fuel + 1, lhs, decl => do
    match ← exprOrCall fuel with
    | .value rhs => pure (.assign lhs (some rhs) decl)
    | .call c =>
      match lhs with
      | .var v => pure (.call v c.target c.args c.receiver decl)
      | _ => reject "call result must be stored in a variable"

/-- A braced block of statements. -/
def block : Nat → ParseM Stmt
  | 0 => exhausted
  | fuel + 1 => do
    expect (.char '\x7b')
    let ss ← blockStmts fuel []
    pure (.seq ss)

/-- The statements of a block up to and including its `}`. -/
def blockStmts : Nat → List Stmt → ParseM (List Stmt)
  | 0, _ => exhausted
  | fuel + 1, acc => do
    let t ← peek
    if t.kind == .char '\x7d' then
      discard next
      pure acc.reverse
    else if t.kind == .eof then reject "unterminated block"
    else
      let s ← stmt fuel
      blockStmts fuel (s :: acc)

/-- `if (c) { … }` with an optional `else { … }`. -/
def ifStmt : Nat → ParseM Stmt
  | 0 => exhausted
  | fuel + 1 => do
    discard next
    expect (.char '(')
    let cond ← expr fuel
    expect (.char ')')
    let thn ← block fuel
    if (← atIdent "else") then
      discard next
      let els ← block fuel
      pure (.ite cond thn els)
    else pure (.ite cond thn Stmt.empty)

/-- `for (var i = a; i < b; i += c) { … }`. -/
def forStmt : Nat → ParseM Stmt
  | 0 => exhausted
  | fuel + 1 => do
    discard next
    expect (.char '(')
    expectIdent "var"
    let name ← ident
    expect (.char '=')
    let start ← expr fuel
    expect (.char ';')
    expectIdent name
    expect (.char '<')
    let stop ← expr fuel
    expect (.char ';')
    expectIdent name
    expect .plusEq
    let step ← expr fuel
    expect (.char ')')
    let body ← block fuel
    pure (.loop name start stop step body)

/-- `Object.defineProperty(o, n, {value: v})`. -/
def defineStmt : Nat → ParseM Stmt
  | 0 => exhausted
  | fuel + 1 => do
    discard next
    expect (.char '.')
    expectIdent "defineProperty"
    expect (.char '(')
    let obj ← expr fuel
    expect (.char ',')
    let name ← expr fuel
    expect (.char ',')
    expect (.char '\x7b')
    expectIdent "value"
    expect (.char ':')
    let v ← expr fuel
    expect (.char '\x7d')
    expect (.char ')')
    pure (.defineProp obj name v)

/-- One statement. -/
def stmt : Nat → ParseM Stmt
  | 0 => exhausted
  | fuel + 1 => do
    let t ← peek
    let word := if t.kind == .ident then t.text else ""
    match word with
    | "var" =>
      discard next
      let name ← ident
      if (← atKind (.char '=')) then
        discard next
        assignment fuel (.var name) true
      else pure (.assign (.var name) none true)
    | "return" =>
      discard next
      pure (.ret (← expr fuel))
    | "throw" =>
      discard next
      pure (.raise (← expr fuel))
    | "delete" =>
      discard next
      match ← chain fuel with
      | .value (.field o n) => pure (.deleteProp o n)
      | _ => reject "delete requires a field access"
    | "break" =>
      discard next
      pure .brk
    | "if" => ifStmt fuel
    | "for" => forStmt fuel
    | "Object" => defineStmt fuel
    | _ =>
      match ← chain fuel with
      | .call _ => reject "call result must be assigned"
      | .value lhs =>
        match lhs with
        | .var _ | .field _ _ =>
          expect (.char '=')
          assignment fuel lhs false
        | _ => reject "invalid assignment target"

end

/-- The statements up to the end of the text. -/
def statements (fuel : Nat) : Nat → List Stmt → ParseM (List Stmt)
  | 0, _ => exhausted
  | steps + 1, acc => do
    if (← atKind .eof) then pure acc.reverse
    else
      let s ← stmt fuel
      statements fuel steps (s :: acc)

end Parsing

/-- Read a program from its text: the sequence of its statements. -/
def parse (src : String) : Except SyntaxError Program := do
  let toks ← tokenize src
  let fuel := 8 * (toks.size + 1)
  let (ss, _) ← ((Parsing.statements fuel (toks.size + 1) []).run toks).run 0
  pure { body := .seq ss }

/-- Read the expression of `return e` from the text of `e`. -/
def parseExpr (src : String) : Except SyntaxError Expr := do
  let p ← parse ("return " ++ src)
  match p.body with
  | .seq [.ret e] => pure e
  | _ => throw { line := 0, msg := "not a single expression" }

end Program

end TraceSynth
