/-
Tokens of the formula and rule languages.

A source is cut into numerals, quoted texts, names and operators; blank characters separate
tokens and are dropped. Positions count UTF-16 code units from the start of the source.

* `Token.scan` : the tokens of a source;
* `tokenize` : the same with the end of the source as a last token;
* `isName` : which texts are names;
* `ExprError` : what can be wrong with a source, with `ExprError.message`.
-/
import PageExtract.Number.Numeral
import PageExtract.Text.Units

namespace PageExtract

open Text

/-- The classes of tokens. -/
inductive TokenKind where
  | num
  | str
  | ident
  | op
  | eof
deriving DecidableEq, Repr, Inhabited

/-- A token: its class, its text and where it starts. The text of a quoted text has its escapes
resolved. -/
structure Token where
  kind : TokenKind
  text : String
  pos : Nat
deriving DecidableEq, Repr, Inhabited

/-- How messages name a token. -/
def Token.describe (t : Token) : String :=
  if t.kind = .eof then "end of expression" else s!"'{t.text}'"

/-- The reasons why a source is not an expression. -/
inductive ExprFault where
  | unterminatedText
  | unexpectedCharacter (c : Char)
  | expected (text : String) (found : Token)
  | expectedName (found : Token)
  | unexpected (found : Token)
  | sumWithoutSequence
  | unknownMethod (name : String)
  | unknownFunction (name : String)
  | unknownName (name : String)
deriving DecidableEq, Repr, Inhabited

/-- A fault and where it lies. -/
structure ExprError where
  fault : ExprFault
  position : Nat
deriving DecidableEq, Repr, Inhabited

/-- A character as messages show it: one beyond the basic plane is cut in half and shows as the
replacement character. -/
def shownChar (c : Char) : String :=
  (if unitWidth c = 1 then c else replacement).toString

/-- The words of a fault. -/
def ExprFault.message : ExprFault → String
  | .unterminatedText => "unterminated string literal"
  | .unexpectedCharacter c => s!"unexpected character '{shownChar c}'"
  | .expected text found => s!"expected '{text}' but found {found.describe}"
  | .expectedName found => s!"expected a name but found {found.describe}"
  | .unexpected found => s!"unexpected {found.describe}"
  | .sumWithoutSequence => "sum() takes a path with at least one '[]' segment"
  | .unknownMethod name => s!"unknown method '{name}'"
  | .unknownFunction name => s!"unknown function '{name}'"
  | .unknownName name => s!"unknown name '{name}'"

/-- The words of an error. -/
def ExprError.message (e : ExprError) : String := e.fault.message

/-- Whether a name can start with a character. -/
def isNameStart (c : Char) : Bool := c.isAlpha || c == '_'

/-- Whether a name can go on with a character. -/
def isNameChar (c : Char) : Bool := c.isAlphanum || c == '_'

/-- Whether a run of characters is a name: a letter or an underscore, then letters, digits and
underscores, all of them ASCII. -/
def isNameChars : List Char → Bool
  | [] => false
  | c :: cs => isNameStart c && cs.all isNameChar

/-- Whether a text is a name. -/
def isName (s : String) : Bool := isNameChars s.toList

/-- The operators; one that another one extends comes after it. -/
def operators : List String :=
  ["==", "!=", "<=", ">=", "<", ">", "+", "-", "*", "/", "%", "(", ")", "[", "]", "\x7b", "\x7d",
    ",", ".", ":"]

/-- The first operator that a run of characters starts with. -/
def operatorAt? (cs : List Char) : Option String :=
  operators.find? fun o => o.toList.isPrefixOf cs

/-- The character that an escaped character stands for. -/
def unescape (c : Char) : Char := if c == 'n' then '\n' else if c == 't' then '\t' else c

/-- Reads a quoted text up to and including its closing quote, after its opening quote. A
backslash escapes the character after it. `acc` holds the characters before, last first. -/
def readQuoted (quote : Char) (acc : List Char) : List Char → Option (String × List Char)
  | [] => none
  | '\\' :: c :: cs => readQuoted quote (unescape c :: acc) cs
  | c :: cs =>
    if c == quote then some (Text.joined (String.ofList acc.reverse), cs)
    else readQuoted quote (c :: acc) cs

theorem length_lt_of_readQuoted {quote : Char} {acc cs : List Char} {s : String}
    {rest : List Char} (h : readQuoted quote acc cs = some (s, rest)) :
    rest.length < cs.length := by
  fun_induction readQuoted quote acc cs with
  | case1 => cases h
  | case2 acc c cs ih => have := ih h; grind
  | case3 => cases h; simp
  | case4 acc c cs _ _ ih => have := ih h; grind

/-- Whether a character opens a quoted text. -/
def isQuote (c : Char) : Bool := c == '\'' || c == '"'

/-- The tokens of the rest `cs` of a source of `total` code units; `last` is the class of the
token before it. A point right after a name is an operator even before a digit. -/
def Token.scan (total : Nat) (last : TokenKind) (cs : List Char) : Except ExprError (List Token) :=
  let pos := total - width16 cs
  match cs with
  | [] => .ok []
  | c :: rest =>
    if isBlank c then Token.scan total last rest
    else if isQuote c then
      match _h : readQuoted c [] rest with
      | some (s, rest') => do return ⟨.str, s, pos⟩ :: (← Token.scan total .str rest')
      | none => .error ⟨.unterminatedText, pos⟩
    else
      match _h : if c == '.' && last = .ident then none else Numeral.scan? (c :: rest) with
      | some (lexeme, rest') => do
        return ⟨.num, String.ofList lexeme, pos⟩ :: (← Token.scan total .num rest')
      | none =>
        if isNameStart c then do
          return ⟨.ident, String.ofList (c :: rest.takeWhile isNameChar), pos⟩ ::
            (← Token.scan total .ident (rest.dropWhile isNameChar))
        else
          match operatorAt? (c :: rest) with
          | some o => do
            return ⟨.op, o, pos⟩ :: (← Token.scan total .op (rest.drop (o.length - 1)))
          | none => .error ⟨.unexpectedCharacter c, pos⟩
termination_by cs.length
decreasing_by
  · simp
  · have := length_lt_of_readQuoted _h; grind
  · split at _h
    · cases _h
    · exact Numeral.length_lt_of_scan _h
  · have := (List.dropWhile_suffix (l := rest) isNameChar).length_le; grind
  · grind

/-- The tokens of a source, without its end. -/
def tokens (source : String) : Except ExprError (List Token) :=
  Token.scan (length16 source) .eof source.toList

/-- The token that stands for the end of a source. -/
def endToken (source : String) : Token := ⟨.eof, "", length16 source⟩

/-- The tokens of a source, the end of the source as the last one. -/
def tokenize (source : String) : Except ExprError (List Token) := do
  return (← tokens source) ++ [endToken source]

end PageExtract
