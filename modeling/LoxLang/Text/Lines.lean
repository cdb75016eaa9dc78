/-!
# Lines

Texts from files and from standard input may end their lines with a carriage return, a line feed or
both. `normalizeNewlines` leaves only line feeds; `splitLines` cuts a text into the lines that a
reader of one line at a time meets.
-/

namespace LoxLang.Text

/-- Writes each carriage return, with the line feed that follows it if there is one, as one line
feed. -/
def normalizeNewlines : List Char → List Char
  | [] => []
  | '\r' :: '\n' :: rest => '\n' :: normalizeNewlines rest
  | character :: rest =>
    (if character = '\r' then '\n' else character) :: normalizeNewlines rest

/-- The lines of a text, without their line feeds. A text that does not end in a line feed has a
last line of what follows the last one. -/
def splitLines : List Char → List (List Char)
  | [] => []
  | character :: rest =>
    if character = '\n' then [] :: splitLines rest
    else match splitLines rest with
      | [] => [[character]]
      | line :: lines => (character :: line) :: lines

end LoxLang.Text
