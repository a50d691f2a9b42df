import TraceSynth.Program.Parse
import TraceSynth.Program.Print

/-!
# Printed programs as tokens

The printer writes each token of a program with its own text, separated by blanks, so a printed
program is a list of lines, each a list of segments: blanks, and tokens with their kind and
text. This module gives that view of the printer (`Expr.segs`, `Stmt.layout`), which reads the
same as `Expr.write` and `Stmt.lines` case for case, and the program the reader builds from those
tokens (`Expr.reread`, `Stmt.reread`): the same tree with each literal replaced by what the
reader makes of its text.

It also names the programs the reader is meant to take back: `Expr.printable` and
`Stmt.printable` say which names, constants and argument slots may occur, and
`Stmt.normal` is the printable normal form: blocks are sequences, no sequence holds a sequence,
assignments have a variable or field on the left, declarations a variable, and a statement whose
text ends with the field `.apply` is not followed by one whose text starts with `(`.
-/

namespace TraceSynth

open Program

/-- A stretch of printed text: blanks, or one token with its kind and text. -/
inductive Seg where
  | blank (text : String)
  | tok (kind : TokenKind) (text : String)

namespace Seg

/-- The text of a segment. -/
def text : Seg → String
  | blank s => s
  | tok _ s => s

/-- The kind and text of a token segment. -/
def lexeme? : Seg → Option (TokenKind × String)
  | blank _ => none
  | tok k s => some (k, s)

/-- A token of one character that stands for itself. -/
def sym (c : Char) : Seg := tok (.char c) c.toString

/-- An identifier. -/
def word (s : String) : Seg := tok .ident s

/-- One space. -/
def space : Seg := blank " "

/-- The text of a list of segments. -/
def render (ss : List Seg) : String := String.join (ss.map text)

/-- The tokens of a list of segments, blanks left out. -/
def lexemes (ss : List Seg) : List (TokenKind × String) := ss.filterMap lexeme?

/-- Segments between parentheses. -/
def paren (ss : List Seg) : List Seg := sym '(' :: ss ++ [sym ')']

/-- Segments between brackets. -/
def bracket (ss : List Seg) : List Seg := sym '[' :: ss ++ [sym ']']

end Seg

/-- The words the reader takes for something other than a variable wherever a name stands:
statement keywords, literal words, the argument list and the receiver-less call's `global`. -/
def reservedWords : List String :=
  ["var", "return", "throw", "delete", "break", "if", "for", "Object", "true", "false", "null",
    "undefined", "NaN", "Infinity", "arguments", "global"]

/-- A name the reader reads back as a variable: one identifier token that is no reserved word
and no argument shorthand `argN`. -/
def isPlainName (s : String) : Bool :=
  (match s.toList with
    | [] => false
    | c :: rest => isIdentChar c 0 && rest.all fun d => isIdentChar d 1) &&
    !reservedWords.contains s && (Parsing.argNumber? s).isNone

namespace Value

/-- The token kind of a number's digits: a float when they hold a point or an exponent. -/
def digitsKind (s : String) : TokenKind :=
  if s.any fun c => c == '.' || c == 'e' then .float else .int

/-- The token of an unsigned number text: a word for `NaN` and `Infinity`, else digits. -/
def atomSeg (s : String) : Seg :=
  if s == "NaN" || s == "Infinity" then .word s else .tok (digitsKind s) s

/-- The tokens of a number's text: a leading minus is a token of its own. -/
def numberSegs (s : String) : List Seg :=
  match s.toList with
  | '-' :: rest => [.sym '-', atomSeg (String.ofList rest)]
  | _ => [atomSeg s]

/-- The segments of a literal. -/
def segs : Value → List Seg
  | .undefined => [.word "undefined"]
  | .null => [.word "null"]
  | .bool b => [.word (if b then "true" else "false")]
  | .number n => numberSegs (formatNumber n)
  | .string s => [.tok .string (Quoted.quote s)]
  | .ref id => [.sym '#', .tok .int (toString id)]

/-- The number the reader makes of an unsigned number text. -/
def atomValue (s : String) : Float :=
  if s == "NaN" then 0.0 / 0.0
  else if s == "Infinity" then 1.0 / 0.0
  else
    match Reading.float (Bytes.ofString s).toList with
    | .ok f => f
    | .error _ => 0

/-- Whether the reader accepts an unsigned number text. -/
def atomReads (s : String) : Bool :=
  s == "NaN" || s == "Infinity" || (Reading.float (Bytes.ofString s).toList).toBool

/-- The number the reader makes of a number text: a leading minus negates. -/
def numberValue (s : String) : Float :=
  match s.toList with
  | '-' :: rest => -atomValue (String.ofList rest)
  | _ => atomValue s

/-- Whether the reader accepts a number text. -/
def numberReads (s : String) : Bool :=
  match s.toList with
  | '-' :: rest => atomReads (String.ofList rest)
  | _ => atomReads s

/-- The literal the reader makes of a literal's text. -/
def reread : Value → Value
  | .number n => .number (numberValue (formatNumber n))
  | .string s => .string ((Quoted.unquote (Bytes.ofString (Quoted.quote s))).getD s)
  | v => v

/-- Whether the reader reads a literal back: no reference, and its text is accepted. -/
def readsBack : Value → Bool
  | .number n => numberReads (formatNumber n)
  | .string s => (Quoted.unquote (Bytes.ofString (Quoted.quote s))).isSome
  | .ref _ => false
  | _ => true

end Value

namespace Expr

/-- The token of an operator. -/
def opSeg : BinaryOp → Seg
  | .add => .sym '+'
  | .eq => .tok .eqEq "=="

/-- The segments of an expression; `top` leaves an operation unparenthesized. -/
def segs (e : Expr) (top : Bool) : List Seg :=
  match e with
  | .const v => v.segs
  | .var name => [.word name]
  | .alloc array => if array then [.sym '[', .sym ']'] else [.sym '\x7b', .sym '\x7d']
  | .argument index =>
    match (Expr.argument index).argIndex? with
    | some i => [.word ("arg" ++ toString i)]
    | none => .word "arguments" :: Seg.bracket (segs index true)
  | .field obj name =>
    let o := if isCompound obj then Seg.paren (segs obj true) else segs obj true
    match name with
    | .const (.string s) =>
      if isIdentifier s then o ++ [.sym '.', .word s.toStringLossy]
      else o ++ Seg.bracket (segs name true)
    | _ => o ++ Seg.bracket (segs name true)
  | .binary op a b =>
    let body := match op, b with
      | .add, .const (.number n) =>
        if n < 0 then segs a false ++ [.space, .sym '-', .space] ++
          Value.numberSegs (Value.formatNumber (-n))
        else segs a false ++ [.space, .sym '+', .space] ++ segs b false
      | _, _ => segs a false ++ [.space, opSeg op, .space] ++ segs b false
    if top then body else Seg.paren body
  | .not inner => .sym '!' :: segs inner false

/-- The segments of an expression that something is read from. -/
def operandSegs (e : Expr) : List Seg :=
  if isCompound e then Seg.paren (e.segs true) else e.segs true

/-- The expression the reader builds from the tokens of an expression. -/
def reread : Expr → Expr
  | .const v => .const v.reread
  | .var name => .var name
  | .alloc array => .alloc array
  | .argument index =>
    match (Expr.argument index).argIndex? with
    | some i =>
      match Parsing.argNumber? ("arg" ++ toString i) with
      | some k => Expr.arg k
      | none => .var ("arg" ++ toString i)
    | none => .argument (reread index)
  | .field obj name =>
    match name with
    | .const (.string s) =>
      if isIdentifier s then .field (reread obj) (.const (.str s.toStringLossy))
      else .field (reread obj) (reread name)
    | _ => .field (reread obj) (reread name)
  | .binary op a b =>
    match op, b with
    | .add, .const (.number n) =>
      if n < 0 then
        .binary .add (reread a) (.const (.number (-Value.numberValue (Value.formatNumber (-n)))))
      else .binary .add (reread a) (reread b)
    | _, _ => .binary op (reread a) (reread b)
  | .not inner => .not (reread inner)

/-- Whether the reader reads an expression back: plain variable names, argument slots whose
constant index is written as a natural number, and literals it accepts. -/
def printable : Expr → Bool
  | .const v => v.readsBack
  | .var name => isPlainName name
  | .alloc _ => true
  | .argument index =>
    match (Expr.argument index).argIndex? with
    | some i => decide (0 ≤ i)
    | none => printable index
  | .field obj name => printable obj && printable name
  | .binary op a b =>
    printable a && (match op, b with
      | .add, .const (.number n) => if n < 0 then Value.readsBack (.number (-n)) else printable b
      | _, _ => printable b)
  | .not inner => printable inner

/-- The segments that read the field `name` from an object: `.name` or `[name]`. -/
def accessSegs (name : Expr) : List Seg :=
  match name with
  | .const (.string s) =>
    if isIdentifier s then [.sym '.', .word s.toStringLossy] else Seg.bracket (name.segs true)
  | _ => Seg.bracket (name.segs true)

/-- The field read the reader builds on `obj` from the segments that read `name`. -/
def accessReread (obj name : Expr) : Expr :=
  match name with
  | .const (.string s) =>
    if isIdentifier s then .field obj (.const (.str s.toStringLossy)) else .field obj name.reread
  | _ => .field obj name.reread

theorem segs_field (o n : Expr) (top : Bool) :
    (Expr.field o n).segs top = o.operandSegs ++ accessSegs n := by
  rcases n with _ | _ | _ | ⟨_ | _ | _ | _ | s | _⟩ | _ | _ | _
  case const.string => by_cases hs : isIdentifier s <;> simp [segs, accessSegs, operandSegs, hs]
  all_goals rfl

theorem reread_field (o n : Expr) : (Expr.field o n).reread = accessReread o.reread n := by
  rcases n with _ | _ | _ | ⟨_ | _ | _ | _ | s | _⟩ | _ | _ | _ <;> rfl

/-- The segments after the left operand of a sum: `+ b`, or `- n` for a negative number `b`. -/
def addendSegs (b : Expr) : List Seg :=
  match b with
  | .const (.number n) =>
    if n < 0 then [.space, .sym '-', .space] ++ Value.numberSegs (Value.formatNumber (-n))
    else [.space, .sym '+', .space] ++ b.segs false
  | _ => [.space, .sym '+', .space] ++ b.segs false

/-- The right operand the reader builds from the segments after the left operand of a sum. -/
def addendReread (b : Expr) : Expr :=
  match b with
  | .const (.number n) =>
    if n < 0 then .const (.number (-Value.numberValue (Value.formatNumber (-n)))) else b.reread
  | _ => b.reread

/-- Whether the reader reads back the right operand of a sum. -/
def addendPrintable (b : Expr) : Bool :=
  match b with
  | .const (.number n) => if n < 0 then Value.readsBack (.number (-n)) else b.printable
  | _ => b.printable

theorem segs_add (a b : Expr) :
    (Expr.binary .add a b).segs true = a.segs false ++ addendSegs b := by
  rcases b with _ | _ | _ | ⟨_ | _ | _ | n | _ | _⟩ | _ | _ | _
  case const.number => by_cases hn : n < 0 <;> simp [segs, addendSegs, hn]
  all_goals simp [segs, addendSegs, opSeg]

theorem reread_add (a b : Expr) :
    (Expr.binary .add a b).reread = .binary .add a.reread (addendReread b) := by
  rcases b with _ | _ | _ | ⟨_ | _ | _ | n | _ | _⟩ | _ | _ | _
  case const.number => by_cases hn : n < 0 <;> simp [reread, addendReread, hn]
  all_goals rfl

theorem printable_add (a b : Expr) :
    (Expr.binary .add a b).printable = (a.printable && addendPrintable b) := by
  rcases b with _ | _ | _ | ⟨_ | _ | _ | n | _ | _⟩ | _ | _ | _
  case const.number => by_cases hn : n < 0 <;> simp [printable, addendPrintable, hn]
  all_goals rfl

theorem segs_eq (a b : Expr) :
    (Expr.binary .eq a b).segs true =
      a.segs false ++ [.space, .tok .eqEq "==", .space] ++ b.segs false := rfl

theorem reread_eq (a b : Expr) :
    (Expr.binary .eq a b).reread = .binary .eq a.reread b.reread := rfl

theorem printable_eq (a b : Expr) :
    (Expr.binary .eq a b).printable = (a.printable && b.printable) := rfl

theorem segs_binary_inner (op : BinaryOp) (a b : Expr) :
    (Expr.binary op a b).segs false = Seg.paren ((Expr.binary op a b).segs true) := by
  cases op <;> rfl

/-- Apart from operations, the segments of an expression do not depend on `top`. -/
theorem segs_of_not_binary {e : Expr} (h : ∀ op a b, e ≠ .binary op a b) (top : Bool) :
    e.segs top = e.segs false := by
  cases e with
  | binary op a b => exact absurd rfl (h op a b)
  | _ => rfl

/-- A chain of field reads taken apart: the innermost object read from, which is an operation,
a number or no field read, and the names read from it in order. -/
def spine : Expr → Expr × List Expr
  | .field o n => if isCompound o then (o, [n]) else ((spine o).1, (spine o).2 ++ [n])
  | e => (e, [])

theorem operandSegs_spine (e : Expr) :
    e.operandSegs = (spine e).1.operandSegs ++ (spine e).2.flatMap accessSegs := by
  induction e with
  | field o n ih _ =>
    have hf : (Expr.field o n).operandSegs = o.operandSegs ++ accessSegs n := by
      simp [operandSegs, isCompound, segs_field]
    by_cases ho : isCompound o = true
    · simp [spine, ho, hf]
    · simp [spine, ho, hf, ih]
  | _ => simp [spine]

theorem reread_spine (e : Expr) :
    e.reread = (spine e).2.foldl accessReread (spine e).1.reread := by
  induction e with
  | field o n ih _ =>
    by_cases ho : isCompound o = true
    · simp [spine, ho, reread_field]
    · simp [spine, ho, reread_field, ← ih]
  | _ => simp [spine]

/-- The innermost object of a chain is an operation or a number, or reads no field. -/
theorem spine_head (e : Expr) : isCompound (spine e).1 = true ∨ ∀ o n, (spine e).1 ≠ .field o n := by
  induction e with
  | field o n ih _ =>
    by_cases ho : isCompound o = true
    · simp [spine, ho]
    · simpa [spine, ho] using ih
  | _ => simp [spine]

theorem printable_spine {e : Expr} (h : e.printable = true) :
    (spine e).1.printable = true ∧ ∀ n ∈ (spine e).2, n.printable = true := by
  induction e with
  | field o n ih _ =>
    simp only [printable, Bool.and_eq_true] at h
    by_cases ho : isCompound o = true
    · simp [spine, ho, h.1, h.2]
    · have := ih h.1
      simp only [spine, ho, Bool.false_eq_true, if_false, List.mem_append, List.mem_singleton]
      exact ⟨this.1, fun m hm => hm.elim (this.2 m) (fun h' => h' ▸ h.2)⟩
  | _ => simpa [spine] using h

end Expr

/-- Whether the last two tokens are the field read `.apply`, which the reader takes as the start
of a call when a parenthesis follows. -/
def endsWithApply (ls : List (TokenKind × String)) : Bool :=
  match ls.reverse with
  | (.ident, "apply") :: (.char '.', _) :: _ => true
  | _ => false

namespace Stmt

/-- The segments of a call's arguments, separated by commas. -/
def argSegs (args : List Expr) : List Seg :=
  List.intercalate [Seg.sym ',', Seg.space] (args.map fun a => a.segs true)

mutual

/-- The lines of a statement at an indentation, each a list of segments. -/
def layout (indent : String) : Stmt → List (List Seg)
  | .seq ss => layoutList indent ss
  | .assign lhs rhs decl =>
    [.blank indent :: ((if decl then [.word "var", .space] else []) ++ lhs.segs true ++
      (match rhs with
        | some r => [.space, .sym '=', .space] ++ r.segs true
        | none => []))]
  | .ret e => [.blank indent :: .word "return" :: .space :: e.segs true]
  | .raise e => [.blank indent :: .word "throw" :: .space :: e.segs true]
  | .deleteProp o n => [.blank indent :: .word "delete" :: .space :: (Expr.field o n).segs true]
  | .defineProp o n v =>
    [.blank indent :: ([.word "Object", .sym '.', .word "defineProperty", .sym '('] ++
      o.segs true ++ [.sym ',', .space] ++ n.segs true ++
      [.sym ',', .space, .sym '\x7b', .word "value", .sym ':', .space] ++ v.segs true ++
      [.sym '\x7d', .sym ')'])]
  | .ite c t e =>
    [.blank indent :: ([.word "if", .space, .sym '('] ++ c.segs true ++
      [.sym ')', .space, .sym '\x7b'])] ++ layout (indent ++ "  ") t ++
      [[.blank indent, .sym '\x7d', .space, .word "else", .space, .sym '\x7b']] ++
      layout (indent ++ "  ") e ++ [[.blank indent, .sym '\x7d']]
  | .loop v a b c body =>
    [.blank indent :: ([.word "for", .space, .sym '(', .word "var", .space, .word v, .space,
      .sym '=', .space] ++ a.segs true ++ [.sym ';', .space, .word v, .space, .sym '<', .space] ++
      b.segs true ++ [.sym ';', .space, .word v, .space, .tok .plusEq "+=", .space] ++
      c.segs true ++ [.sym ')', .space, .sym '\x7b'])] ++
      layout (indent ++ "  ") body ++ [[.blank indent, .sym '\x7d']]
  | .call res target args recv decl =>
    [.blank indent :: ((if decl then [.word "var", .space] else []) ++
      [.word res, .space, .sym '=', .space] ++ target.operandSegs ++
      [.sym '.', .word "apply", .sym '('] ++
      (match recv with
        | some e => e.segs true
        | none => [.word "global"]) ++
      [.sym ',', .space, .sym '['] ++ argSegs args ++ [.sym ']', .sym ')'])]
  | .brk => [[.blank indent, .word "break"]]

/-- The lines of statements in order. -/
def layoutList (indent : String) : List Stmt → List (List Seg)
  | [] => []
  | s :: rest => layout indent s ++ layoutList indent rest

end

mutual

/-- The statement the reader builds from the tokens of a statement. -/
def reread : Stmt → Stmt
  | .seq ss => .seq (rereadList ss)
  | .assign lhs rhs decl => .assign lhs.reread (rhs.map Expr.reread) decl
  | .ret e => .ret e.reread
  | .raise e => .raise e.reread
  | .deleteProp o n =>
    match (Expr.field o n).reread with
    | .field o' n' => .deleteProp o' n'
    | _ => .deleteProp o.reread n.reread
  | .defineProp o n v => .defineProp o.reread n.reread v.reread
  | .ite c t e => .ite c.reread (reread t) (reread e)
  | .loop v a b c body => .loop v a.reread b.reread c.reread (reread body)
  | .call res target args recv decl =>
    .call res target.reread (args.map Expr.reread) (recv.map Expr.reread) decl
  | .brk => .brk

/-- The statements the reader builds from the tokens of statements. -/
def rereadList : List Stmt → List Stmt
  | [] => []
  | s :: rest => reread s :: rereadList rest

end

/-- Whether a statement's text starts with a parenthesis: an assignment to a field of an
operation or a number. -/
def opensWithParen (s : Stmt) : Bool :=
  ((Seg.lexemes (s.layout "").flatten).head?.map Prod.fst) == some (.char '(')

/-- Whether a statement's text ends with the field read `.apply`. -/
def closesWithApply (s : Stmt) : Bool :=
  endsWithApply (Seg.lexemes (s.layout "").flatten)

mutual

/-- The printable normal form of a statement. -/
def normal : Stmt → Bool
  | .seq _ => false
  | .assign lhs rhs decl =>
    (match lhs with
      | .var _ => true
      | .field _ _ => !decl
      | _ => false) &&
    lhs.printable && (match rhs with
      | some r => r.printable
      | none => decl)
  | .ret e | .raise e => e.printable
  | .deleteProp o n => o.printable && n.printable
  | .defineProp o n v => o.printable && n.printable && v.printable
  | .ite c t e => c.printable && normalBlock t && normalBlock e
  | .loop v a b c body =>
    isPlainName v && a.printable && b.printable && c.printable && normalBlock body
  | .call res target args recv _ =>
    isPlainName res && target.printable && args.all Expr.printable &&
      (match recv with
        | some e => e.printable
        | none => true)
  | .brk => true

/-- A block in normal form: a sequence of statements in normal form, none that ends with
`.apply` followed by one that starts with a parenthesis. -/
def normalBlock : Stmt → Bool
  | .seq ss => normalList ss
  | _ => false

/-- Statements in normal form, with no `.apply` at the end of one before a parenthesis at the
start of the next. -/
def normalList : List Stmt → Bool
  | [] => true
  | [s] => normal s
  | s :: t :: rest =>
    normal s && !(closesWithApply s && opensWithParen t) && normalList (t :: rest)

end

end Stmt

/-- Whether a program is in printable normal form. -/
def Program.normal (p : Program) : Bool := p.body.normalBlock

end TraceSynth
