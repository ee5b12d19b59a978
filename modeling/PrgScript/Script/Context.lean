import PrgScript.Program.Color
import PrgScript.Script.Line

/-!
# The context of a statement

What reading a script keeps track of from line to line: the open blocks and their
counts, the colours chosen last, and the names declared so far. A context can be
handed on from one script to the next.
-/

namespace PrgScript

/-- An open block: the word that opened it, the counter of a loop, and whether an else part has
begun. -/
structure OpenConstruct where
  construct : Construct
  opener : Token
  counter : Text := []
  hasElse : Bool := false
deriving DecidableEq, Repr

/-- What reading a script keeps track of. `blocks` holds the open blocks, the innermost first, and
`declared` the declared names in upper case. -/
structure Context where
  indent : Int := 1
  parens : Int := 0
  forDepth : Int := 0
  doDepth : Int := 0
  ifCount : Int := 0
  endifCount : Int := 0
  colors : ColorPair := .default
  failed : Bool := false
  blocks : List OpenConstruct := []
  declared : List Text := []
  seenStatement : Bool := false
  hasParameters : Bool := false
deriving DecidableEq, Repr

namespace Context

def openParen (ctx : Context) : Context := { ctx with parens := openedParens ctx.parens }

/-- Counts a closing parenthesis; it is refused, and the count stays, if none is open. -/
def closeParen (ctx : Context) : Bool × Context :=
  (ctx.parens != 0, { ctx with parens := closedParens ctx.parens })

/-- Whether every IF has its ENDIF. -/
def balanced (ctx : Context) : Bool := ctx.ifCount == ctx.endifCount

def openBlocks (ctx : Context) : Nat := ctx.blocks.length

/-- Whether the innermost block is a class. -/
def inClass (ctx : Context) : Bool := ctx.blocks.head?.any (·.construct == .classBlock)

/-- Whether a block of a kind is open at any depth. -/
def hasOpen (ctx : Context) (construct : Construct) : Bool :=
  ctx.blocks.any (·.construct == construct)

/-- Sets the indentation, which is never below one. -/
def setIndent (ctx : Context) (depth : Int) : Context :=
  { ctx with indent := if depth < 1 then 1 else depth }

def push (ctx : Context) (block : OpenConstruct) : Context :=
  { ctx with blocks := block :: ctx.blocks }

def pop (ctx : Context) : Context := { ctx with blocks := ctx.blocks.tail }

def markElse (ctx : Context) : Context :=
  { ctx with
    blocks :=
      match ctx.blocks with
      | block :: blocks => { block with hasElse := true } :: blocks
      | [] => [] }

/-- Declares a name; tells whether it is new. Letter case does not count. -/
def declare (ctx : Context) (name : Text) : Bool × Context :=
  let key := Text.upper name
  if ctx.declared.contains key then (false, ctx)
  else (true, { ctx with declared := key :: ctx.declared })

/-- The innermost block, which a word must close or divide. -/
def closing (ctx : Context) (closing : Closing) (tok : Token) : Except Fault OpenConstruct :=
  let word := Text.upper tok.text
  match ctx.blocks with
  | [] => .error (.at (.withoutOpener closing word) tok)
  | block :: _ =>
    if block.construct = closing.construct then .ok block
    else if ctx.hasOpen closing.construct then
      .error (.at (.stillOpen closing word block.construct block.opener.line) tok)
    else .error (.at (.withoutOpener closing word) tok)

/-- Whether a statement that starts with a token may stand in this context. A class holds only
properties and its end. -/
def admits (ctx : Context) (tok : Token) : Except Fault Unit :=
  match tok.kind with
  | .keyword .kwParameter =>
    if ctx.hasParameters then .error (.at .parameterTwice tok)
    else if ctx.seenStatement then .error (.at .parameterLate tok)
    else .ok ()
  | .keyword .kwElse =>
    match ctx.closing .elseWord tok with
    | .error e => .error e
    | .ok block =>
      if block.hasElse then .error (.at (.secondElse block.opener.line) tok) else .ok ()
  | .keyword .kwEndif => discard (ctx.closing .endif tok)
  | .keyword .kwNext => discard (ctx.closing .nextWord tok)
  | .keyword .kwEnddo => discard (ctx.closing .enddo tok)
  | .keyword .kwEndclass => discard (ctx.closing .endclass tok)
  | .keyword .kwClass =>
    match ctx.blocks with
    | [] => .ok ()
    | block :: _ => .error (.at (.classInside block.construct block.opener.line) tok)
  | .keyword .kwThis => if ctx.inClass then .ok () else .error (.at .thisOutsideClass tok)
  | _ => .ok ()

def belongsInClass (tok : Token) : Bool :=
  tok.kind == .keyword .kwThis || tok.kind == .keyword .kwEndclass

end Context

end PrgScript
