import Precedents.Reference.Reader

/-!
# Terminals

The words and marks that formulas are made of.  Each terminal has a label for
messages and a shape.  Where several terminals fit, the first one in the order
of `inMatchOrder` is taken, even if another one is longer.
-/

namespace Precedents

inductive Terminal
  | functionName | cellRange | rowRange | columnRange | cell | sheet | error | boolean | name
  | number | string | blank | notEqual | atLeast | atMost | ampersand | circumflex | comma | equal
  | leftBrace | less | leftParen | minus | greater | percent | plus | rightBrace | rightParen
  | semicolon | slash | star
deriving DecidableEq, Repr

namespace Terminal

open Text

def inMatchOrder : List Terminal := [
  functionName, cellRange, rowRange, columnRange, cell, sheet, error, boolean, name, number,
  string, blank, notEqual, atLeast, atMost, ampersand, circumflex, comma, equal, leftBrace, less,
  leftParen, minus, greater, percent, plus, rightBrace, rightParen, semicolon, slash, star]

def inLabelOrder : List Terminal := [
  ampersand, boolean, cell, cellRange, circumflex, columnRange, comma, equal, error, functionName,
  leftBrace, less, leftParen, minus, greater, name, number, percent, plus, rightBrace, rowRange,
  rightParen, semicolon, sheet, slash, star, string, blank, notEqual, atLeast, atMost]

def label : Terminal -> String
  | functionName => "FUNC_NAME"
  | cellRange => "CELL_RANGE"
  | rowRange => "ROW_RANGE"
  | columnRange => "COLUMN_RANGE"
  | cell => "CELL"
  | sheet => "SHEET"
  | error => "ERROR"
  | boolean => "BOOL"
  | name => "NAME"
  | number => "NUMBER"
  | string => "STRING"
  | blank => "WS"
  | notEqual => "__ANON_0"
  | atLeast => "__ANON_1"
  | atMost => "__ANON_2"
  | ampersand => "AMPERSAND"
  | circumflex => "CIRCUMFLEX"
  | comma => "COMMA"
  | equal => "EQUAL"
  | leftBrace => "LBRACE"
  | less => "LESSTHAN"
  | leftParen => "LPAR"
  | minus => "MINUS"
  | greater => "MORETHAN"
  | percent => "PERCENT"
  | plus => "PLUS"
  | rightBrace => "RBRACE"
  | rightParen => "RPAR"
  | semicolon => "SEMICOLON"
  | slash => "SLASH"
  | star => "STAR"

/-! ## Shapes -/

/-- A character that would make a word or a call of what stands before it. -/
def extendsWord (c : Char) : Bool :=
  isNameRest c || c == '('

def extendsCell (c : Char) : Bool :=
  extendsWord c || c == '!' || c == ':'

def extendsRows (c : Char) : Bool :=
  isPlainDigit c || c == '.'

def functionShape : Scanner :=
  Sheet.nameScanner >=> Scanner.char '('

def cellRangeShape : Scanner :=
  Shape.cell >=> Scanner.char ':' >=> Shape.cell >=> Scanner.notBefore extendsWord

def columnRangeShape : Scanner :=
  Shape.column >=> Scanner.char ':' >=> Shape.column >=> Scanner.notBefore extendsWord

def rowRangeShape : Scanner :=
  Shape.row >=> Scanner.char ':' >=> Shape.row >=> Scanner.notBefore extendsRows

def cellShape : Scanner :=
  Shape.cell >=> Scanner.notBefore extendsCell

def quotedSheetRest (cs : List Char) : Option (List Char) :=
  match quotedRun apostrophe cs with
  | some (_ :: _, '!' :: rest) => some rest
  | _ => none

def sheetShape : Scanner :=
  Scanner.either (Scanner.char apostrophe >=> quotedSheetRest)
    (Sheet.nameScanner >=> Scanner.char '!')

def caseless : (word : List Char) -> Scanner
  | [] => some
  | letter :: word => Scanner.one (fun c => upperChar c == [letter]) >=> caseless word

def booleanShape : Scanner :=
  Scanner.either (caseless ['T', 'R', 'U', 'E']) (caseless ['F', 'A', 'L', 'S', 'E'])
    >=> Scanner.notBefore extendsWord

def errorTexts : List String :=
  ["#DIV/0!", "#VALUE!", "#NULL!", "#NAME?", "#REF!", "#NUM!", "#N/A"]

def errorShape : Scanner :=
  fun cs => errorTexts.findSome? fun text => Scanner.literal text.toList cs

def nameShape : Scanner :=
  Scanner.either (Scanner.one isNameStart) (Scanner.char '\\') >=> Scanner.many isNameRest

def exponentShape : Scanner :=
  Scanner.one (fun c => c == 'e' || c == 'E')
    >=> Scanner.maybe (Scanner.one fun c => c == '+' || c == '-')
    >=> Scanner.many1 isPlainDigit

def numberShape : Scanner :=
  Scanner.either
      (Scanner.many1 isPlainDigit
        >=> Scanner.maybe (Scanner.char '.' >=> Scanner.many isPlainDigit))
      (Scanner.char '.' >=> Scanner.many1 isPlainDigit)
    >=> Scanner.maybe exponentShape

/--
What follows the end of a string.  A doubled mark belongs to the string if the
string is closed behind it, and otherwise its first mark closes the string.
-/
def stringRest : List Char -> Option (List Char)
  | [] => none
  | [c] => if c = quoteMark then some [] else none
  | c :: d :: rest =>
      if c = quoteMark then
        if d = quoteMark then (stringRest rest).or (some (d :: rest)) else some (d :: rest)
      else stringRest (d :: rest)

def stringShape : Scanner :=
  Scanner.char quoteMark >=> stringRest

def isFiller (c : Char) : Bool :=
  c == ' ' || c == '\t' || c == '\n' || c == '\r' || c == '\x0c'

def shape : Terminal -> Scanner
  | functionName => functionShape
  | cellRange => cellRangeShape
  | rowRange => rowRangeShape
  | columnRange => columnRangeShape
  | cell => cellShape
  | sheet => sheetShape
  | error => errorShape
  | boolean => booleanShape
  | name => nameShape
  | number => numberShape
  | string => stringShape
  | blank => Scanner.many1 isFiller
  | notEqual => Scanner.literal ['<', '>']
  | atLeast => Scanner.literal ['>', '=']
  | atMost => Scanner.literal ['<', '=']
  | ampersand => Scanner.char '&'
  | circumflex => Scanner.char '^'
  | comma => Scanner.char ','
  | equal => Scanner.char '='
  | leftBrace => Scanner.char '\x7b'
  | less => Scanner.char '<'
  | leftParen => Scanner.char '('
  | minus => Scanner.char '-'
  | greater => Scanner.char '>'
  | percent => Scanner.char '%'
  | plus => Scanner.char '+'
  | rightBrace => Scanner.char '\x7d'
  | rightParen => Scanner.char ')'
  | semicolon => Scanner.char ';'
  | slash => Scanner.char '/'
  | star => Scanner.char '*'

/-! ## The first terminal of a text -/

/-- The first terminal of a text among those that `admits` lets through, and its characters. -/
def first? (admits : Terminal -> Bool) (cs : List Char) : Option (Terminal × List Char) :=
  inMatchOrder.findSome? fun t =>
    if admits t then (t.shape cs).map fun rest => (t, cs.take (cs.length - rest.length)) else none

end Terminal
end Precedents
