import ChatCommands.Text.Printable

set_option autoImplicit false

/-!
# Quoted texts

A text is quoted in single quotes, or in double quotes if it has a single quote
and no double one. Inside, the enclosing quote and the backslash are written
after a backslash, line feed, carriage return and tab by their letter, and every
other hidden character by its code point in two, four or eight hexadecimal
digits. All else stands for itself.
-/
namespace ChatCommands.Text

def singleQuote : Char := '\x27'
def doubleQuote : Char := '\x22'
def backslash : Char := '\x5c'

/-- The hexadecimal digits of a number, filled up with zeros to the given width. -/
def hexDigits (width n : Nat) : List Char :=
  let ds := Nat.toDigits 16 n
  List.replicate (width - ds.length) '0' ++ ds

def enclosingQuote (cs : List Char) : Char :=
  if cs.contains singleQuote && !cs.contains doubleQuote then doubleQuote else singleQuote

/-- How one character is written inside the given quotes. -/
def escapeChar (quote c : Char) : List Char :=
  if c = quote || c = backslash then [backslash, c]
  else if c = '\n' then [backslash, 'n']
  else if c = '\r' then [backslash, 'r']
  else if c = '\t' then [backslash, 't']
  else if isPrintable c then [c]
  else if c.toNat < 0x100 then backslash :: 'x' :: hexDigits 2 c.toNat
  else if c.toNat < 0x10000 then backslash :: 'u' :: hexDigits 4 c.toNat
  else backslash :: 'U' :: hexDigits 8 c.toNat

def quotedChars (cs : List Char) : List Char :=
  let q := enclosingQuote cs
  q :: (cs.flatMap (escapeChar q) ++ [q])

def quoted (text : String) : String := String.ofList (quotedChars text.toList)

end ChatCommands.Text
