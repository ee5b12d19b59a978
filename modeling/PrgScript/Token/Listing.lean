import PrgScript.Text.Json
import PrgScript.Token.Basic

/-!
# Token listings

A sequence of tokens is shown one to a line or as a JSON document. Both end with the
first end token.
-/

namespace PrgScript.Token

/-- The tokens up to the first end token, that one included. -/
def upToEnd : List Token → List Token
  | [] => []
  | tok :: toks => if tok.kind = .eof then [tok] else tok :: upToEnd toks

/-- One line of a listing: number, kind, text, value if it differs from the text, and place. -/
def listingLine (number : Nat) (tok : Token) : Text :=
  Text.padLeft 3 (Text.ofNat number) ++ ": " ++ Text.padRight 15 tok.kind.name ++
    Text.onlyIf (tok.text ≠ [] ∧ tok.kind ≠ .newline) (" " ++ Text.quote tok.text) ++
    Text.onlyIf (tok.value ≠ [] ∧ tok.value ≠ tok.text) (" = " ++ Text.quote tok.value) ++
    " at " ++ Text.ofNat tok.line ++ ":" ++ Text.ofNat tok.col ++ "\n"

def listingFrom (number : Nat) : List Token → Text
  | [] => []
  | tok :: toks => listingLine number tok ++ listingFrom (number + 1) toks

/-- The tokens as a listing, one to a line, numbered from one. -/
def listing (toks : List Token) : Text := listingFrom 1 (upToEnd toks)

/-- A token as a JSON record; an empty text or value is left out. -/
def toJson (tok : Token) : Json :=
  .record <|
    [Json.field "kind" (.text tok.kind.name)] ++ Json.textField "text" tok.text ++
      Json.textField "value" tok.value ++
      [Json.field "line" (.nat tok.line), Json.field "col" (.nat tok.col),
        Json.field "start" (.nat tok.span.start), Json.field "end" (.nat tok.span.stop)]

def jsonListing (toks : List Token) : Text := Json.document (.list ((upToEnd toks).map toJson))

end PrgScript.Token
