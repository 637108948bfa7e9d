/-
Steps that the readers of both expression languages share.

The readers work on the tokens of a source without its end; a token `stop` stands for the end in
messages.

* `Token.isOp`, `Token.isWord` : tests on one token;
* `Token.opNext`, `Token.wordNext`, `Token.bracketsNext` : tests on what comes next;
* `Token.expectOp`, `Token.expectName` : reading a token that has to be there.
-/
import PageExtract.Expr.Token
import PageExtract.Reading

namespace PageExtract

namespace Token

/-- Whether a token is the operator `o`. -/
def isOp (t : Token) (o : String) : Bool := t.kind = .op && t.text == o

/-- Whether a token is the name `w`. -/
def isWord (t : Token) (w : String) : Bool := t.kind = .ident && t.text == w

/-- The next token, or the one that stands for the end. -/
def next (stop : Token) : List Token → Token
  | [] => stop
  | t :: _ => t

/-- Reads the operator `o`. -/
def expectOp (stop : Token) (o : String) (ts : List Token) :
    Except ExprError (Reading Token Unit ts.length) :=
  match ts with
  | [] => .error ⟨.expected o stop, stop.pos⟩
  | t :: rest => if t.isOp o then .ok ⟨(), rest, length_lt_cons t rest⟩
    else .error ⟨.expected o t, t.pos⟩

/-- Reads a name. -/
def expectName (stop : Token) (ts : List Token) :
    Except ExprError (Reading Token Token ts.length) :=
  match ts with
  | [] => .error ⟨.expectedName stop, stop.pos⟩
  | t :: rest =>
    if t.kind = .ident then .ok ⟨t, rest, length_lt_cons t rest⟩
    else .error ⟨.expectedName t, t.pos⟩

/-- Whether the brackets `[` `]` come next. -/
def bracketsNext : List Token → Bool
  | t :: u :: _ => t.isOp "[" && u.isOp "]"
  | _ => false

/-- Whether the operator `o` comes next. -/
def opNext (o : String) : List Token → Bool
  | t :: _ => t.isOp o
  | [] => false

/-- Whether the word `w` comes next. -/
def wordNext (w : String) : List Token → Bool
  | t :: _ => t.isWord w
  | [] => false

end Token

end PageExtract
