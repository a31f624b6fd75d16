import CommandMenu.Toml.Excerpt
import CommandMenu.Toml.Quoting

/-! # The tokens of a TOML text

A text is cut into marks, white space, comments, quoted texts and words.  A quoted text that is not
closed ends with its line, or with the whole text if it may run over several lines.

* `Token` is a part of a text with its kind and its place, `Token.list` are the tokens of a text.
-/

namespace CommandMenu.Toml

/-- The kinds of tokens. -/
inductive Token.Kind where
  | dot
  | equals
  | comma
  | openBracket
  | closeBracket
  | openBrace
  | closeBrace
  | blank
  | newline
  | comment
  | quoted (quoting : Quoting)
  | word
  | finish
deriving DecidableEq, Repr, Inhabited

/-- A part of a text with its kind. -/
structure Token extends Excerpt where
  kind : Token.Kind
deriving Repr, Inhabited

namespace Token

/-- Whether a token only lays out the text, or ends it. -/
def isLayout (t : Token) : Bool :=
  t.kind = .blank || t.kind = .newline || t.kind = .comment || t.kind = .finish

/-! ### The extent of tokens -/

/-- The characters of a quoted text on one line, behind its first quote.  In a text with escapes a
backslash hides a quote or a backslash behind it. -/
def quotedLength (quote : Char) (escapes : Bool) : List Char → Nat
  | [] => 0
  | '\\' :: c :: rest =>
    if escapes && (c == '\\' || c == '"') then quotedLength quote escapes rest + 2
    else if c == '\n' then 1
    else if c == quote then 2
    else quotedLength quote escapes (c :: rest) + 1
  | c :: rest =>
    if c == quote then 1
    else if c == '\n' then 0
    else quotedLength quote escapes rest + 1

/-- The characters of a quoted text over several lines, behind its first quotes.  Up to two quotes
in front of the last three belong to it. -/
def longLength (quote : Char) (escapes : Bool) : List Char → Nat
  | [] => 0
  | '\\' :: c :: rest =>
    if escapes && (c == '\\' || c == '"') then longLength quote escapes rest + 2
    else longLength quote escapes (c :: rest) + 1
  | a :: b :: c :: rest =>
    if a == quote && b == quote && c == quote then
      3 + ((rest.take 2).takeWhile (· == quote)).length
    else longLength quote escapes (b :: c :: rest) + 1
  | _ :: rest => longLength quote escapes rest + 1

/-- Whether a character ends a word. -/
def endsWord (c : Char) : Bool := ".=,[]\x7b\x7d \t#\r\n".toList.contains c

/-- The kind of the next token and the number of its characters. -/
def next : List Char → Kind × Nat
  | [] => (.finish, 0)
  | '.' :: _ => (.dot, 1)
  | '=' :: _ => (.equals, 1)
  | ',' :: _ => (.comma, 1)
  | '[' :: _ => (.openBracket, 1)
  | ']' :: _ => (.closeBracket, 1)
  | '{' :: _ => (.openBrace, 1)
  | '}' :: _ => (.closeBrace, 1)
  | '\n' :: _ => (.newline, 1)
  | '\r' :: '\n' :: _ => (.newline, 2)
  | '\r' :: _ => (.newline, 1)
  | '\'' :: '\'' :: '\'' :: rest => (.quoted .longLiteral, longLength '\'' false rest + 3)
  | '"' :: '"' :: '"' :: rest => (.quoted .longBasic, longLength '"' true rest + 3)
  | '\'' :: rest => (.quoted .literal, quotedLength '\'' false rest + 1)
  | '"' :: rest => (.quoted .basic, quotedLength '"' true rest + 1)
  | '#' :: rest => (.comment, (rest.takeWhile fun x => x != '\n' && x != '\r').length + 1)
  | c :: rest =>
    if c == ' ' || c == '\t' then
      (.blank, (rest.takeWhile fun x => x == ' ' || x == '\t').length + 1)
    else (.word, (rest.takeWhile fun x => !endsWord x).length + 1)

/-- The next `n` tokens from an octet on; the end of the text is a token of its own. -/
def listFrom : (n : Nat) → (start : Nat) → List Char → List Token
  | 0, start, _ => [⟨⟨start, []⟩, .finish⟩]
  | n + 1, start, cs =>
    match cs with
    | [] => [⟨⟨start, []⟩, .finish⟩]
    | _ :: _ =>
      let (kind, length) := next cs
      let token : Token := ⟨⟨start, cs.take length⟩, kind⟩
      token :: listFrom n token.span.stop (cs.drop length)

/-- The tokens of a text.  A mark of the octet order in front of it is passed over. -/
def list (text : String) : List Token :=
  match text.toList with
  | '\uFEFF' :: rest => listFrom rest.length 3 rest
  | cs => listFrom cs.length 0 cs

end Token
end CommandMenu.Toml
