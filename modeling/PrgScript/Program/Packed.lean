import PrgScript.Pack.Basic
import PrgScript.Program.Basic

/-!
# Packed programs

A program is packed piece by piece: a statement or expression becomes a list of its
kind, its line and its parts. Unpacking accepts pieces whose kind is unknown or whose
content is missing; the check of a program finds them.
-/

namespace PrgScript

namespace Pack

def text? : Pack → Option Text
  | .text value => some value
  | _ => none

def items? {α : Type} (unpack : Pack → Option α) : Pack → Option (List α)
  | .list items => items.mapM unpack
  | _ => none

/-- A piece of a program: its kind, its line and its parts. -/
def piece (kind line : Nat) (parts : List Pack) : Pack :=
  .list (.int kind :: .int line :: parts)

end Pack

namespace Color

def toPack (c : Color) : Pack := .list [.int c.base.toNat, .bool c.bright]

def ofPack? : Pack → Option Color
  | .list [.int (.ofNat base), .bool bright] => some ⟨UInt8.ofNat base, bright⟩
  | _ => none

end Color

namespace Expr

/-- An expression as a packed value. Both zeros are packed as the positive one. -/
def toPack : Expr → Pack
  | .number value line => .piece 1 line [.float (if value == 0 then 0 else value).toBits]
  | .string value line => .piece 2 line [.text value]
  | .logical value line => .piece 3 line [.bool value]
  | .ident name line => .piece 4 line [.text name]
  | .unary op operand line => .piece 5 line [.int op.code.toNat, operand.toPack]
  | .binary op left right line => .piece 6 line [.int op.code.toNat, left.toPack, right.toPack]
  | .missing => .nil
  | .malformed kind line => .piece 0 line [.int kind]

def ofPack? : Pack → Option Expr
  | .nil => some .missing
  | .list [.int 0, .int (.ofNat line), .int (.ofNat kind)] => some (.malformed kind line)
  | .list [.int 1, .int (.ofNat line), .float bits] => some (.number (Float.ofBits bits) line)
  | .list [.int 2, .int (.ofNat line), .text value] => some (.string value line)
  | .list [.int 3, .int (.ofNat line), .bool value] => some (.logical value line)
  | .list [.int 4, .int (.ofNat line), .text name] => some (.ident name line)
  | .list [.int 5, .int (.ofNat line), .int (.ofNat op), operand] => do
    return .unary (Op.ofCode (UInt8.ofNat op)) (← ofPack? operand) line
  | .list [.int 6, .int (.ofNat line), .int (.ofNat op), left, right] => do
    return .binary (Op.ofCode (UInt8.ofNat op)) (← ofPack? left) (← ofPack? right) line
  | _ => none

/-- An expression that may be left out. -/
def stepToPack : Option Expr → Pack
  | none => .list []
  | some e => .list [e.toPack]

def stepOfPack? : Pack → Option (Option Expr)
  | .list [] => some none
  | .list [e] => (ofPack? e).map some
  | _ => none

end Expr

namespace Stmt

mutual

def toPack : Stmt → Pack
  | .declare names line => .piece 1 line [.list (names.map .text)]
  | .assign name value line => .piece 2 line [.text name, value.toPack]
  | .branch condition thenBody elseBody line =>
    .piece 3 line [condition.toPack, .list (blockToPack thenBody), .list (blockToPack elseBody)]
  | .forTo counter start limit step body line =>
    .piece 4 line [.text counter, start.toPack, limit.toPack, Expr.stepToPack step,
      .list (blockToPack body)]
  | .whileDo condition body line =>
    .piece 5 line [condition.toPack, .list (blockToPack body)]
  | .setColor colors line =>
    .piece 6 line [colors.foreground.toPack, colors.background.toPack]
  | .say row col value line => .piece 7 line [row.toPack, col.toPack, value.toPack]
  | .print values newline line =>
    .piece 8 line [.list (values.map Expr.toPack), .bool newline]
  | .finish line => .piece 9 line []
  | .malformed kind line => .piece 0 line [.int kind]

def blockToPack : List Stmt → List Pack
  | [] => []
  | s :: ss => s.toPack :: blockToPack ss

end

mutual

def ofPack? : Pack → Option Stmt
  | .list [.int 0, .int (.ofNat line), .int (.ofNat kind)] => some (.malformed kind line)
  | .list [.int 1, .int (.ofNat line), names] => do
    return .declare (← names.items? Pack.text?) line
  | .list [.int 2, .int (.ofNat line), .text name, value] => do
    return .assign name (← Expr.ofPack? value) line
  | .list [.int 3, .int (.ofNat line), condition, .list thenBody, .list elseBody] => do
    return .branch (← Expr.ofPack? condition) (← blockOfPack? thenBody) (← blockOfPack? elseBody)
      line
  | .list [.int 4, .int (.ofNat line), .text counter, start, limit, step, .list body] => do
    return .forTo counter (← Expr.ofPack? start) (← Expr.ofPack? limit) (← Expr.stepOfPack? step)
      (← blockOfPack? body) line
  | .list [.int 5, .int (.ofNat line), condition, .list body] => do
    return .whileDo (← Expr.ofPack? condition) (← blockOfPack? body) line
  | .list [.int 6, .int (.ofNat line), foreground, background] => do
    return .setColor ⟨← Color.ofPack? foreground, ← Color.ofPack? background⟩ line
  | .list [.int 7, .int (.ofNat line), row, col, value] => do
    return .say (← Expr.ofPack? row) (← Expr.ofPack? col) (← Expr.ofPack? value) line
  | .list [.int 8, .int (.ofNat line), values, .bool newline] => do
    return .print (← values.items? Expr.ofPack?) newline line
  | .list [.int 9, .int (.ofNat line)] => some (.finish line)
  | _ => none

def blockOfPack? : List Pack → Option (List Stmt)
  | [] => some []
  | p :: ps => do return (← ofPack? p) :: (← blockOfPack? ps)

end

end Stmt

namespace Property

def toPack (p : Property) : Pack := .list [.text p.name, p.value.toPack, .int p.line]

def ofPack? : Pack → Option Property
  | .list [.text name, value, .int (.ofNat line)] => do
    return { name, value := ← Expr.ofPack? value, line }
  | _ => none

end Property

namespace Class

def toPack (c : Class) : Pack :=
  .list [.text c.name, .int c.base.code.toNat, .list (c.properties.map Property.toPack),
    .int c.line]

def ofPack? : Pack → Option Class
  | .list [.text name, .int (.ofNat base), properties, .int (.ofNat line)] => do
    let properties ← properties.items? Property.ofPack?
    return { name, base := Widget.ofCode (UInt8.ofNat base), properties, line }
  | _ => none

end Class

namespace Program

def toPack (p : Program) : Pack :=
  .list [.text p.name, .list (p.params.map .text), .list (Stmt.blockToPack p.body),
    .list (p.classes.map Class.toPack)]

def ofPack? : Pack → Option Program
  | .list [.text name, params, .list body, classes] => do
    let params ← params.items? Pack.text?
    return {
      name, params
      body := ← Stmt.blockOfPack? body
      classes := ← classes.items? Class.ofPack? }
  | _ => none

end Program

end PrgScript
