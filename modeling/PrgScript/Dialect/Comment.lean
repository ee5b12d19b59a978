import PrgScript.Dialect.Basic

/-!
# Comments

The comment shapes of all dialects. A dialect allows some of them, refuses those that
belong to another dialect, and takes the rest as ordinary characters.
-/

namespace PrgScript

inductive CommentForm where
  | starStar | ampAmp | slashSlash | slashStar | parenStar | brace | semicolon
deriving DecidableEq, Repr

namespace CommentForm

/-- All comment shapes, in the order they are tried: openers of two characters come first. -/
def all : List CommentForm :=
  [.starStar, .ampAmp, .slashSlash, .slashStar, .parenStar, .brace, .semicolon]

/-- The comment shape with a code, counted from one. -/
def ofCode? : Nat → Option CommentForm
  | 0 => none
  | n + 1 => all[n]?

def first : CommentForm → Char
  | .starStar => '*'
  | .ampAmp => '&'
  | .slashSlash => '/'
  | .slashStar => '/'
  | .parenStar => '('
  | .brace => '\x7b'
  | .semicolon => ';'

/-- The second character of the mark that opens a comment, if it has two. -/
def second? : CommentForm → Option Char
  | .starStar => some '*'
  | .ampAmp => some '&'
  | .slashSlash => some '/'
  | .slashStar => some '*'
  | .parenStar => some '*'
  | .brace => none
  | .semicolon => none

def opener (form : CommentForm) : List Char := form.first :: form.second?.toList

/-- The mark that closes a comment; a comment without one ends with its line. -/
def closer : CommentForm → List Char
  | .slashStar => ['*', '/']
  | .parenStar => ['*', ')']
  | .brace => ['\x7d']
  | _ => []

/-- Whether a comment runs up to a closing mark. -/
def isBlock (form : CommentForm) : Bool := !form.closer.isEmpty

end CommentForm

/-- What a dialect makes of a comment shape. -/
inductive Usage where
  | notComment
  | allowed
  | foreign
deriving DecidableEq, Repr

namespace Usage

def code : Usage → Nat
  | .notComment => 0
  | .allowed => 1
  | .foreign => 2

end Usage

namespace Dialect

def usage : Dialect → CommentForm → Usage
  | .dbase, .starStar | .dbase, .ampAmp | .dbase, .slashSlash | .dbase, .slashStar => .allowed
  | .dbase, .parenStar | .dbase, .brace | .dbase, .semicolon => .foreign
  | .pascal, .parenStar | .pascal, .brace | .pascal, .slashSlash => .allowed
  | .pascal, .starStar | .pascal, .ampAmp | .pascal, .slashStar => .foreign
  | .pascal, .semicolon => .notComment
  | .lisp, .semicolon => .allowed
  | .lisp, .slashSlash | .lisp, .slashStar | .lisp, .brace | .lisp, .ampAmp => .foreign
  | .lisp, .starStar | .lisp, .parenStar => .notComment

/-- The comment shapes that a dialect allows or refuses, in the order they are tried. -/
def commentForms (d : Dialect) : List CommentForm :=
  CommentForm.all.filter (d.usage · != .notComment)

end Dialect

end PrgScript
