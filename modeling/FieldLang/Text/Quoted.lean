import FieldLang.Text.Digits
import FieldLang.Text.Printable

/-!
# Quoted Texts

Two ways of putting a text between double quotes. The first is the form of a string literal: quote,
backslash, line feed, carriage return and tab are escaped by a letter, other controls by four
hexadecimal digits, and all else stands for itself. The second is for messages, where every character
must be visible: it escapes by code point in braces whatever has no visible form or would attach to
the character before it.

## Main definitions

* `escapeChar`, `quoted`: The form of a string literal.
* `showChar`, `shown`: The form in messages.
-/

namespace FieldLang.Text

/-- A control character by its four hexadecimal digits. -/
def escapeCode (c : Char) : List Char :=
  '\\' :: 'u' :: padLeft 4 (hexadecimal c.toNat)

/-- A character inside a string literal. -/
def escapeChar (c : Char) : List Char :=
  if c = '\x22' then ['\\', '\x22']
  else if c = '\\' then ['\\', '\\']
  else if c = '\n' then ['\\', 'n']
  else if c = '\r' then ['\\', 'r']
  else if c = '\t' then ['\\', 't']
  else if c.toNat < 0x20 then escapeCode c
  else [c]

/-- A text as a string literal. -/
def quoted (s : String) : String :=
  String.ofList ('\x22' :: s.toList.flatMap escapeChar ++ ['\x22'])

/-- A character inside a text quoted in a message. -/
def showChar (c : Char) : List Char :=
  if c = '\x22' then ['\\', '\x22']
  else if c = '\\' then ['\\', '\\']
  else if c = '\n' then ['\\', 'n']
  else if c = '\r' then ['\\', 'r']
  else if c = '\t' then ['\\', 't']
  else if c = '\x00' then ['\\', '0']
  else if isPrintable c && !isCombining c then [c]
  else '\\' :: 'u' :: '\x7b' :: hexadecimal c.toNat ++ ['\x7d']

/-- A text quoted in a message. -/
def shown (s : String) : String :=
  String.ofList ('\x22' :: s.toList.flatMap showChar ++ ['\x22'])

end FieldLang.Text
